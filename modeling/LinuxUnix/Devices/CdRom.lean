import LinuxUnix.Foundation.CMemory
import Mathlib.Data.Int.Init

/-! # Playing a CD

`play_cdrom` of cdrom.c takes the entry behind a track as its end, and track 1 as the first one
of a disc. The last track has no such entry, and a disc may start with another track: in these
cases the program exits (`LinuxUnix.CdRom.plays_iff`).
-/

namespace LinuxUnix.CdRom

/-- `struct cdrom_msf0` -/
structure Msf where
  minute : Byte
  second : Byte
  frame : Byte
  deriving DecidableEq

/-- `struct cdrom_msf` -/
structure CdromMsf where
  min0 : Byte
  sec0 : Byte
  frame0 : Byte
  min1 : Byte
  sec1 : Byte
  frame1 : Byte
  deriving DecidableEq

/-- `FULL` -/
def full : ℤ := 0

/-- `CDROM_LEADOUT` -/
def cdromLeadout : ℕ := 0xAA

/-- A number stored in `cdte_track`, which has eight bits. -/
def cdteTrack (number : ℤ) : ℕ := (number % 256).toNat

/-- How the drive answers `CDROMREADTOCENTRY`, and whether it carries out `CDROMPLAYMSF`. -/
structure Drive where
  readTocEntry : ℕ → Option Msf
  playMsf : CdromMsf → Bool

/-- The times for which `CDROMPLAYMSF` is issued, what `perror` prints, and whether the program
exits. -/
structure Outcome where
  issued : List CdromMsf
  stderr : List String
  exited : Bool
  deriving DecidableEq

/-- From the start of one entry to the start of another. -/
def between (first last : Msf) : CdromMsf where
  min0 := first.minute
  sec0 := first.second
  frame0 := first.frame
  min1 := last.minute
  sec1 := last.second
  frame1 := last.frame

/-- The variables `track` and `lead`. -/
def bounds (flag : ℤ) : ℤ × ℤ :=
  if flag = full then (1, cdromLeadout) else (flag, flag + 1)

/-- `play_cdrom` -/
def playCdrom (drive : Drive) (flag : ℤ) : Outcome :=
  match drive.readTocEntry (cdteTrack (bounds flag).1) with
  | none => ⟨[], ["Kann Inhalt der CD nicht ermitteln\n"], true⟩
  | some first =>
      match drive.readTocEntry (cdteTrack (bounds flag).2) with
      | none => ⟨[], ["Kann Inhalt der CD nicht ermitteln\n"], true⟩
      | some last =>
          if drive.playMsf (between first last) then ⟨[between first last], [], false⟩
          else ⟨[between first last], ["Kann CD nicht abspielen\n"], true⟩

/-- A table of contents: the tracks `trk0` to `trk1`, and where they and the lead-out start. No
track has the number `FULL`. -/
structure Toc where
  trk0 : ℕ
  trk1 : ℕ
  start : ℕ → Msf
  positive : 0 < trk0
  ordered : trk0 ≤ trk1
  below : trk1 < cdromLeadout

/-- The answers to `CDROMREADTOCENTRY`. -/
def Toc.entry (toc : Toc) (track : ℕ) : Option Msf :=
  if toc.trk0 ≤ track ∧ track ≤ toc.trk1 ∨ track = cdromLeadout then some (toc.start track)
  else none

/-- What `play_cdrom` is asked for. -/
inductive Request
  | track (number : ℕ)
  | whole
  deriving DecidableEq

/-- The argument of `play_cdrom`. -/
def Request.flag : Request → ℤ
  | .track number => number
  | .whole => full

/-- The track is on the disc. -/
def Toc.Offers (toc : Toc) : Request → Prop
  | .track number => toc.trk0 ≤ number ∧ number ≤ toc.trk1
  | .whole => True

/-- What is to be played. -/
def Toc.wanted (toc : Toc) : Request → CdromMsf
  | .track number =>
      between (toc.start number)
        (toc.start (if number = toc.trk1 then cdromLeadout else number + 1))
  | .whole => between (toc.start toc.trk0) (toc.start cdromLeadout)

/-- What is asked for is played, and the program goes on. -/
def Plays (toc : Toc) (playMsf : CdromMsf → Bool) (request : Request) : Prop :=
  (playCdrom ⟨toc.entry, playMsf⟩ request.flag).issued = [toc.wanted request] ∧
    (playCdrom ⟨toc.entry, playMsf⟩ request.flag).exited = false

/-- `play_cdrom` finds both entries: a track is not the last one, unless the lead-out has the
number behind it, and a disc starts with track 1. -/
def Toc.Reads (toc : Toc) : Request → Prop
  | .track number => number < toc.trk1 ∨ number + 1 = cdromLeadout
  | .whole => toc.trk0 = 1

variable {toc : Toc} {playMsf : CdromMsf → Bool} {request : Request}

theorem cdteTrack_natCast {number : ℕ} (small : number < 256) : cdteTrack number = number := by
  rw [cdteTrack]
  omega

theorem Toc.entry_of_offers {number : ℕ} (offers : toc.Offers (.track number)) :
    toc.entry number = some (toc.start number) :=
  if_pos (.inl offers)

theorem Toc.entry_leadout (toc : Toc) : toc.entry cdromLeadout = some (toc.start cdromLeadout) :=
  if_pos (.inr rfl)

/-- With both entries there, the drive decides. -/
theorem plays_of_entries {first last : Msf}
    (start : toc.entry (cdteTrack (bounds request.flag).1) = some first)
    (stop : toc.entry (cdteTrack (bounds request.flag).2) = some last)
    (wanted : toc.wanted request = between first last) :
    Plays toc playMsf request ↔ playMsf (toc.wanted request) := by
  rw [Plays, wanted]
  simp only [playCdrom, start, stop]
  split
  · rename_i plays
    exact iff_of_true ⟨rfl, rfl⟩ plays
  · rename_i refuses
    exact iff_of_false (fun played => Bool.noConfusion played.2) refuses

/-- Without one of the entries nothing is played. -/
theorem not_plays_of_missing
    (missing : toc.entry (cdteTrack (bounds request.flag).1) = none ∨
      toc.entry (cdteTrack (bounds request.flag).2) = none) : ¬ Plays toc playMsf request := by
  rintro ⟨issued, -⟩
  rw [playCdrom] at issued
  rcases missing with start | stop
  · simp only [start] at issued
    exact List.cons_ne_nil _ _ issued.symm
  · cases first : toc.entry (cdteTrack (bounds request.flag).1) with
    | none =>
        simp only [first] at issued
        exact List.cons_ne_nil _ _ issued.symm
    | some entry =>
        simp only [first, stop] at issued
        exact List.cons_ne_nil _ _ issued.symm

/-- The entries that are read for a track. -/
theorem bounds_track {number : ℕ} (offers : toc.Offers (.track number)) :
    cdteTrack (bounds (Request.track number).flag).1 = number ∧
      cdteTrack (bounds (Request.track number).flag).2 = number + 1 := by
  have positive := toc.positive
  have below := toc.below
  obtain ⟨first, last⟩ := offers
  rw [cdromLeadout] at below
  have other : ¬ (number : ℤ) = full := by
    rw [full]
    omega
  rw [Request.flag, bounds, if_neg other]
  exact ⟨cdteTrack_natCast (by omega), @cdteTrack_natCast (number + 1) (by omega)⟩

/-- The entry behind a track is missing for the last one. -/
theorem plays_track {number : ℕ} (offers : toc.Offers (.track number)) :
    Plays toc playMsf (.track number) ↔
      toc.Reads (.track number) ∧ playMsf (toc.wanted (.track number)) := by
  obtain ⟨start, stop⟩ := bounds_track offers
  have first : toc.entry (cdteTrack (bounds (Request.track number).flag).1) =
      some (toc.start number) := by
    rw [start]
    exact toc.entry_of_offers offers
  rw [Toc.Reads]
  by_cases inner : number < toc.trk1
  · rw [and_iff_right (.inl inner)]
    apply plays_of_entries first
    · rw [stop]
      exact toc.entry_of_offers ⟨Nat.le_succ_of_le offers.1, inner⟩
    · rw [Toc.wanted, if_neg (Nat.ne_of_lt inner)]
  · have same : number = toc.trk1 := Nat.le_antisymm offers.2 (Nat.le_of_not_lt inner)
    by_cases adjacent : number + 1 = cdromLeadout
    · rw [and_iff_right (.inr adjacent)]
      apply plays_of_entries first
      · rw [stop, adjacent]
        exact toc.entry_leadout
      · rw [Toc.wanted, if_pos same]
    · apply iff_of_false
      · apply not_plays_of_missing
        right
        rw [stop]
        apply if_neg
        rintro (⟨-, last⟩ | leadout)
        · omega
        · exact adjacent leadout
      · rintro ⟨inner' | adjacent', -⟩
        · exact inner inner'
        · exact adjacent adjacent'

/-- Track 1 is missing unless it is the first one. -/
theorem plays_whole : Plays toc playMsf .whole ↔
    toc.Reads .whole ∧ playMsf (toc.wanted .whole) := by
  have positive := toc.positive
  have leadout := toc.entry_leadout
  by_cases one : toc.trk0 = 1
  · have first := @toc.entry_of_offers 1 ⟨Nat.le_of_eq one, one ▸ toc.ordered⟩
    rw [Toc.Reads, and_iff_right one]
    apply plays_of_entries first leadout
    rw [Toc.wanted, one]
  · apply iff_of_false
    · apply not_plays_of_missing
      left
      apply if_neg
      rintro (⟨first, -⟩ | leadout)
      · change toc.trk0 ≤ 1 at first
        omega
      · cases leadout
    · exact fun reads => one reads.1

/-- A track or the whole disc is played if and only if both entries are found and the drive
plays what lies between them. -/
theorem plays_iff (offers : toc.Offers request) :
    Plays toc playMsf request ↔ toc.Reads request ∧ playMsf (toc.wanted request) := by
  cases request with
  | track number => exact plays_track offers
  | whole => exact plays_whole

/-- A disc with the tracks 1 and 2. -/
def twoTracks : Toc where
  trk0 := 1
  trk1 := 2
  start number := ⟨UInt8.ofNat number, 0, 0⟩
  positive := by decide
  ordered := by decide
  below := by decide

/-- Its first track is played. -/
theorem plays_firstTrack : Plays twoTracks (fun _ => true) (.track 1) :=
  (@plays_iff twoTracks _ (.track 1) ⟨by decide, by decide⟩).mpr ⟨.inl (by decide), rfl⟩

/-- Its second track is not. -/
theorem not_plays_lastTrack : ¬ ∀ (toc : Toc) (request : Request), toc.Offers request →
    Plays toc (fun _ => true) request := by
  intro claim
  have played := claim twoTracks (.track 2) ⟨by decide, by decide⟩
  exact List.cons_ne_nil _ _ played.1.symm

end LinuxUnix.CdRom

import LinuxUnix.Foundation.CMemory
import Mathlib.Data.List.Basic

/-! # Paths

A path is followed component by component from a directory, which is given by the names that
lead to it from the root. Followed without looking at the file system, every path is some steps
up and then some names (`Paths.walk_eq`). So whether it leads below the directory it starts at is
decided by these (`Paths.inside_iff`, `Paths.strictlyInside_iff`).
-/

namespace Paths

/-- A component of a path. -/
inductive Component (Name : Type*)
  /-- `.`, or nothing between two slashes -/
  | current
  | parent
  | name (name : Name)
  deriving DecidableEq

variable {Name : Type*}

/-- The directory behind a component; the root is its own parent. -/
def enter (directory : List Name) : Component Name → List Name
  | .current => directory
  | .parent => directory.dropLast
  | .name name => directory ++ [name]

/-- Where a route leads. -/
def walk (directory : List Name) (route : List (Component Name)) : List Name :=
  route.foldl enter directory

/-- Some steps up, and then names. -/
structure Normal (Name : Type*) where
  climbs : ℕ
  names : List Name

/-- A step up takes back the last name. -/
def Normal.enter (normal : Normal Name) : Component Name → Normal Name
  | .current => normal
  | .parent => match normal.names with
    | [] => { normal with climbs := normal.climbs + 1 }
    | _ :: _ => { normal with names := normal.names.dropLast }
  | .name name => { normal with names := normal.names ++ [name] }

def normal (route : List (Component Name)) : Normal Name :=
  route.foldl Normal.enter ⟨0, []⟩

/-- What is left of the directory after the steps up. -/
def Normal.kept (normal : Normal Name) (directory : List Name) : List Name :=
  directory.take (directory.length - normal.climbs)

/-- The names of the directory that the steps up leave, all of them at most. -/
def Normal.lost (normal : Normal Name) (directory : List Name) : List Name :=
  directory.drop (directory.length - normal.climbs)

/-- Where it leads. -/
def Normal.apply (normal : Normal Name) (directory : List Name) : List Name :=
  normal.kept directory ++ normal.names

/-- In the directory or below it. -/
def Inside (directory place : List Name) : Prop :=
  directory <+: place

def StrictlyInside (directory place : List Name) : Prop :=
  directory <+: place ∧ directory ≠ place

variable {directory : List Name} {route : List (Component Name)}

theorem enter_apply (normal : Normal Name) (component : Component Name) :
    enter (normal.apply directory) component = (normal.enter component).apply directory := by
  cases component with
  | current => rfl
  | parent =>
      obtain ⟨climbs, names⟩ := normal
      cases names with
      | nil =>
          change (directory.take (directory.length - climbs) ++ []).dropLast =
            directory.take (directory.length - (climbs + 1)) ++ []
          rw [List.append_nil, List.append_nil, List.dropLast_eq_take, List.take_take,
            List.length_take]
          congr 1
          omega
      | cons name names => exact List.dropLast_append_of_ne_nil (List.cons_ne_nil name names)
  | name name => exact List.append_assoc ..

/-- A path leads where its normal form leads. -/
theorem walk_eq : walk directory route = (normal route).apply directory := by
  have from_ : ∀ (route : List (Component Name)) (normal : Normal Name),
      walk (normal.apply directory) route =
        (route.foldl Normal.enter normal).apply directory := by
    intro route
    induction route with
    | nil => exact fun _ => rfl
    | cons component route ih =>
        intro normal
        change walk (enter (normal.apply directory) component) route = _
        rw [enter_apply, ih]
        rfl
  have start : (⟨0, []⟩ : Normal Name).apply directory = directory := by
    rw [Normal.apply, Normal.kept, Nat.sub_zero, List.take_length, List.append_nil]
  rw [normal, ← from_, start]

theorem kept_append_lost (normal : Normal Name) (directory : List Name) :
    normal.kept directory ++ normal.lost directory = directory :=
  List.take_append_drop ..

/-- The path leads back to the directory if the names begin with those that it has left. -/
theorem inside_iff : Inside directory (walk directory route) ↔
    (normal route).lost directory <+: (normal route).names := by
  have split := kept_append_lost (normal route) directory
  rw [Inside, walk_eq, Normal.apply]
  generalize (normal route).kept directory = kept at split ⊢
  rw [← split, List.prefix_append_right_inj, split]

theorem strictlyInside_iff : StrictlyInside directory (walk directory route) ↔
    (normal route).lost directory <+: (normal route).names ∧
      (normal route).lost directory ≠ (normal route).names := by
  have same : directory = walk directory route ↔
      (normal route).lost directory = (normal route).names := by
    have split := kept_append_lost (normal route) directory
    rw [walk_eq, Normal.apply]
    generalize (normal route).kept directory = kept at split ⊢
    constructor
    · exact fun same => List.append_cancel_left (split.trans same)
    · exact fun same => split.symm.trans (congrArg (kept ++ ·) same)
  rw [StrictlyInside, ← Inside, inside_iff, ne_eq, same]

/-- A component as it is written. -/
def component (text : List Byte) : Component (List Byte) :=
  if text = [] ∨ text = ['.'.toUInt8] then .current
  else if text = ['.'.toUInt8, '.'.toUInt8] then .parent
  else .name text

/-- The components between the slashes. -/
def components (path : List Byte) : List (Component (List Byte)) :=
  (path.splitOn '/'.toUInt8).map component

/-- Where a path leads, from the working directory if it does not begin with a slash. -/
def locate (working : List (List Byte)) (path : List Byte) : List (List Byte) :=
  walk (if path.head? = some '/'.toUInt8 then [] else working) (components path)

theorem components_append (first second : List Byte) :
    components (first ++ '/'.toUInt8 :: second) =
      components first ++ components second := by
  rw [components, List.splitOn_append_cons_self, List.map_append]
  rfl

/-- A path that goes on behind a slash leads on from where the path before it leads. -/
theorem locate_append (working : List (List Byte)) {first : List Byte} (nonempty : first ≠ [])
    (second : List Byte) : locate working (first ++ '/'.toUInt8 :: second) =
      walk (locate working first) (components second) := by
  rw [locate, List.head?_append_of_ne_nil _ nonempty, components_append, walk, List.foldl_append]
  rfl

end Paths

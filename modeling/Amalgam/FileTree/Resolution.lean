import Amalgam.FileTree.Basic
import Amalgam.Path

namespace Amalgam
namespace FileTree

/-!
# Resolving paths

A path leads to a place one component at a time, from the root or from the
working directory.  Every component but the last has to be a directory; the
last may be absent, and then the path leads to the place where it would be.
-/

/-- The longest name of a component, in bytes. -/
def longestName : Nat := 255

/-- The longest path, in bytes. -/
def longestPath : Nat := 4095

/-- Where a walk stands: the names that led there, the last one first, each with
all that is under it. -/
abbrev Trail := List (String × Trie Entry)

/-- The place that a trail leads to. -/
def Trail.place (trail : Trail) : Place :=
  (trail.map (·.1)).reverse

/-- All that is at the end of a trail and below. -/
def under (t : FileTree) : Trail → Trie Entry
  | [] => t.table
  | (_, u) :: _ => u

def Trail.standing : Trail → Option Entry
  | [] => some .directory
  | (_, u) :: _ => u.value

def descend (t : FileTree) (trail : Trail) (name : String) : Trail :=
  (name, (t.under trail).child name) :: trail

def trailTo (t : FileTree) (place : Place) : Trail :=
  place.foldl t.descend []

/-- Follows components from the end of a trail. -/
def walk (t : FileTree) : Trail → List String → Except Refusal Trail
  | trail, [] => .ok trail
  | trail, name :: names =>
      match trail.standing with
      | none => .error .notFound
      | some (.file _) => .error .notDirectory
      | some .directory =>
          if name = "." then t.walk trail names
          else if name = ".." then t.walk trail.tail names
          else if longestName < name.utf8ByteSize then .error .nameTooLong
          else t.walk (t.descend trail name) names

/-- The place that components lead to from a place. -/
def follow (t : FileTree) (place : Place) (names : List String) : Except Refusal Place :=
  (t.walk (t.trailTo place) names).map Trail.place

/-- The place that a path starts from.  Some texts are no paths at all. -/
def start (t : FileTree) (path : String) : Except Refusal Place :=
  if path.toList.contains '\x00' then .error .nulInPath
  else if path.isEmpty then .error .notFound
  else if longestPath < path.utf8ByteSize then .error .nameTooLong
  else .ok (if Path.isAbsolute path then [] else t.here)

def resolve (t : FileTree) (path : String) : Except Refusal Place := do
  t.follow (← t.start path) (Path.components path)

/-- Where one component leads from a place, whether or not anything is there. -/
def stepFrom (place : Place) (name : String) : Place :=
  if name = "." then place
  else if name = ".." then place.dropLast
  else place ++ [name]

/-- The place that a path means, whether or not anything is there. -/
def placeOf (t : FileTree) (path : String) : Place :=
  (Path.components path).foldl stepFrom (if Path.isAbsolute path then [] else t.here)

/-- The directory that holds the last component of a path. -/
def resolveDirectory (t : FileTree) (path : String) : Except Refusal Place := do
  t.follow (← t.start path) ((Path.components path).dropLast ++ ["."])

def workingDirectory (t : FileTree) : String :=
  "/" ++ String.intercalate "/" t.here

/-- A path to the same place that starts from the root. -/
def fromRoot (t : FileTree) (path : String) : String :=
  Path.join t.workingDirectory path

def open? (t : FileTree) (path : String) : Except Refusal Entry := do
  let place ← t.resolve path
  match t.get? place with
  | none => .error .notFound
  | some .directory => .ok .directory
  | some (.file content) =>
      if Path.meansDirectory path then .error .notDirectory else .ok (.file content)

def pathExists (t : FileTree) (path : String) : Bool :=
  (t.open? path).toOption.isSome

def isDirectory (t : FileTree) (path : String) : Bool :=
  match t.open? path with
  | .ok entry => entry.isDirectory
  | .error _ => false

def hasDirectory (t : FileTree) (place : Place) : Bool :=
  (t.get? place).any Entry.isDirectory

/-- The content of the file that a path leads to. -/
def read (t : FileTree) (path : String) : Except Refusal ByteArray := do
  match ← t.open? path with
  | .directory => .error .isDirectory
  | .file content => .ok content

/-! ## Laws

A walk could as well look up each place from the root.
-/

theorem trailTo_append (t : FileTree) (place : Place) (name : String) :
    t.trailTo (place ++ [name]) = t.descend (t.trailTo place) name := by
  simp [trailTo]

theorem under_trailTo (t : FileTree) (place : Place) :
    t.under (t.trailTo place) = t.table.under place := by
  have h : ∀ names : List String,
      t.under (t.trailTo names.reverse) = t.table.under names.reverse := by
    intro names
    induction names with
    | nil => rfl
    | cons name names ih =>
      rw [List.reverse_cons, trailTo_append, Trie.under_append, ← ih]
      rfl
  simpa using h place.reverse

theorem standing_trailTo (t : FileTree) (place : Place) :
    (t.trailTo place).standing = t.get? place := by
  rcases List.eq_nil_or_concat place with rfl | ⟨front, name, rfl⟩
  · rfl
  · rw [List.concat_eq_append, get?, if_neg (by simp), Trie.find?, ← under_trailTo,
      trailTo_append]
    rfl

theorem place_trailTo (t : FileTree) (place : Place) :
    (t.trailTo place).place = place := by
  have h : ∀ names : List String, (t.trailTo names.reverse).map (·.1) = names := by
    intro names
    induction names with
    | nil => rfl
    | cons name names ih =>
      rw [List.reverse_cons, trailTo_append, descend, List.map_cons, ih]
  rw [Trail.place, ← List.reverse_reverse place, h place.reverse]

theorem tail_trailTo (t : FileTree) (place : Place) :
    (t.trailTo place).tail = t.trailTo place.dropLast := by
  rcases List.eq_nil_or_concat place with rfl | ⟨front, name, rfl⟩
  · rfl
  · rw [List.concat_eq_append, trailTo_append, List.dropLast_concat]
    rfl

theorem follow_nil (t : FileTree) (place : Place) : t.follow place [] = .ok place := by
  rw [follow, walk]
  exact congrArg Except.ok (place_trailTo t place)

theorem follow_cons (t : FileTree) (place : Place) (name : String) (names : List String) :
    t.follow place (name :: names) =
      match t.get? place with
      | none => .error .notFound
      | some (.file _) => .error .notDirectory
      | some .directory =>
          if name = "." then t.follow place names
          else if name = ".." then t.follow place.dropLast names
          else if longestName < name.utf8ByteSize then .error .nameTooLong
          else t.follow (place ++ [name]) names := by
  rw [follow, walk, standing_trailTo, tail_trailTo, ← trailTo_append]
  cases t.get? place with
  | none => rfl
  | some entry =>
    cases entry with
    | file => rfl
    | directory =>
      simp only
      split
      · rfl
      · split
        · rfl
        · split <;> rfl

end FileTree
end Amalgam

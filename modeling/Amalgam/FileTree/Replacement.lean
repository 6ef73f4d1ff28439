import Amalgam.Failure
import Amalgam.FileTree.Change

namespace Amalgam
namespace FileTree

/-!
# Replacing a file as a whole

New content is first written to a temporary file in the directory of the
destination, and that file then takes the destination's place.  So the
destination keeps its old content or gets all of the new one.

When the temporary file cannot take the destination's place, it is still there
and has to be discarded; `replaceFileKeeping` says where it is, and `discarding`
removes it.
-/

/-- How a change of the tree was given up. -/
structure Abort where
  failure : Failure
  /-- A temporary file that is still there. -/
  leftover : Option Place
deriving DecidableEq

/-- A change given up with nothing left over. -/
def Abort.clean (failure : Failure) : Abort :=
  ⟨failure, none⟩

def ensureDirectory (path : String) : EStateM Abort FileTree Unit := fun t =>
  if t.pathExists path then .ok () t
  else
    match makeDirectories path t with
    | .ok _ t => .ok () t
    | .error refusal t => .error (.clean (.directoryNotCreated path refusal)) t

/-- The digits of a number, in a given width.  What does not fit the width is
counted in zeros in front, so that no two numbers have the same digits. -/
def digitsIn : Nat → Nat → List Char
  | 0, n => List.replicate n '0'
  | width + 1, n => digitsIn width (n / 10) ++ [Nat.digitChar (n % 10)]

/-- The names of temporary files, one for each number. -/
def temporaryName (n : Nat) : String :=
  ".tmp" ++ String.ofList (digitsIn 6 n)

/-- The first temporary name that is free in a directory. -/
def freshName (t : FileTree) (directory : Place) : String :=
  let taken := t.namesIn directory
  -- Among more names than the directory holds, one is free.
  let candidates := (List.range (taken.length + 1)).map temporaryName
  (candidates.find? (· ∉ taken)).getD (temporaryName 0)

/-- Whether the temporary files of a directory have paths that are short enough.
They are named from the root, to be found again wherever the program goes. -/
def roomForTemporary (t : FileTree) (directory : String) : Bool :=
  (Path.join (t.fromRoot directory) (temporaryName 0)).utf8ByteSize ≤ longestPath

def makeTemporary (directory : String) : EStateM Abort FileTree Place := fun t =>
  match t.resolve directory, t.isDirectory directory && t.roomForTemporary directory with
  | .ok place, true =>
      let fresh := place ++ [t.freshName place]
      .ok fresh (t.put fresh (.file ByteArray.empty))
  | _, _ => .error (.clean (.temporaryNotCreated directory)) t

def fits (t : FileTree) (content : ByteArray) : Bool :=
  match t.space with
  | none => true
  | some space => content.size ≤ space

/-- Writes content to a temporary file, which goes if the content does not fit. -/
def fillTemporary (path : String) (temporary : Place) (content : ByteArray) :
    EStateM Abort FileTree Unit := fun t =>
  if t.fits content then .ok () (t.put temporary (.file content))
  else .error (.clean (.contentNotWritten path .noSpace)) (t.erase temporary)

/-- The place that a temporary file can be moved to under this path. -/
def destination? (t : FileTree) (temporary : Place) (path : String) : Option Place :=
  match t.resolve path with
  | .error _ => none
  | .ok place =>
      -- The place of the temporary file itself is never in the way.
      if place != temporary && t.fixed.contains place then none
      else if Path.meansDirectory path || t.hasDirectory place then none
      else some place

/-- Moves a filled temporary file to the place of the destination. -/
def moveTemporary (path : String) (temporary : Place) : EStateM Abort FileTree Unit := fun t =>
  match (t.destination? temporary path).bind (t.move? temporary) with
  | none => .error ⟨.notReplaced path, some temporary⟩ t
  | some t => .ok () t

/-- Replaces the content of a file, or creates it, directories included. -/
def replaceFileKeeping (path : String) (content : ByteArray) : EStateM Abort FileTree Unit := do
  let directory := Path.directory path
  ensureDirectory directory
  let temporary ← makeTemporary directory
  fillTemporary path temporary content
  -- If this fails, the temporary file stays.
  moveTemporary path temporary

/-- Discards the temporary file of a change that was given up. -/
def discarding {α : Type} (change : EStateM Abort FileTree α) :
    EStateM Failure FileTree α := fun t =>
  match change t with
  | .ok a t => .ok a t
  | .error abort t =>
      match abort.leftover with
      | none => .error abort.failure t
      | some place => .error abort.failure (t.erase place)

/-- Replaces the content of a file, or creates it, and leaves no temporary
file. -/
def replaceFile (path : String) (content : ByteArray) : EStateM Failure FileTree Unit :=
  discarding (replaceFileKeeping path content)

end FileTree
end Amalgam

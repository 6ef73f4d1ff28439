import Amalgam.FileTree.Resolution

namespace Amalgam
namespace FileTree

/-!
# Plain changes

Making directories, writing a file in place and removing.  A refused change
leaves the tree as it was, with two exceptions: directories made on the way to a
directory that cannot be made stay, and what was below a directory that cannot be
removed is gone.
-/

/-- Makes one directory. -/
def makeDirectory (path : String) : EStateM Refusal FileTree Unit := fun t =>
  match t.resolve path with
  | .error refusal => .error refusal t
  | .ok place =>
      match t.get? place with
      | some _ => .error .alreadyExists t
      | none => .ok () (t.put place .directory)

/-- Makes one directory, unless there is one already. -/
def makeDirectoryOnce (path : String) : EStateM Refusal FileTree Unit := fun t =>
  match makeDirectory path t with
  | .ok _ t => .ok () t
  | .error refusal t => if t.isDirectory path then .ok () t else .error refusal t

/-- Makes the first directory of a lineage, and its parents where they are
missing. -/
def makeLineage : List String → EStateM Refusal FileTree Unit
  | [] => pure ()
  | path :: parents => fun t =>
      if path.isEmpty then .ok () t
      else
        match makeDirectoryOnce path t with
        | .error .notFound t =>
            match makeLineage parents t with
            | .ok _ t => makeDirectoryOnce path t
            | .error refusal t => .error refusal t
        | result => result

/-- Makes a directory with its parents. -/
def makeDirectories (path : String) : EStateM Refusal FileTree Unit :=
  makeLineage (Path.lineage path)

/-- The place where a file of a path can be written.  A path that can only mean
a directory is refused before its last component is looked up. -/
def fileTarget (t : FileTree) (path : String) : Except Refusal Place := do
  if Path.meansDirectory path then
    let _ ← t.resolveDirectory path
    throw .isDirectory
  else
    let place ← t.resolve path
    if t.hasDirectory place then throw .isDirectory else return place

/-- Writes a file in place, in a directory that exists. -/
def write (path : String) (content : ByteArray) : EStateM Refusal FileTree Unit := fun t =>
  match t.fileTarget path with
  | .error refusal => .error refusal t
  | .ok place => .ok () (t.put place (.file content))

/-- Removes a directory that has just been emptied.  If the path to it went through
what was below, it leads nowhere any more, and the directory stays.  A path that
ends in a dot cannot be removed. -/
def removeEmptied (path : String) (place : Place) : EStateM Refusal FileTree Unit := fun t =>
  match t.resolveDirectory path with
  | .error _ => .ok () t
  | .ok _ =>
      if (Path.components path).getLast? = some "." then .error .invalidArgument t
      else .ok () (t.erase place)

/-- Whether a place cannot be removed, because it is fixed or holds a place that is. -/
def isHeld (t : FileTree) (place : Place) : Bool :=
  t.fixed.any place.isPrefixOf

/-- Removes a file, or a directory after all that is below it. -/
def remove (path : String) : EStateM Refusal FileTree Unit := fun t =>
  match t.resolve path, t.open? path with
  | .ok place, .ok entry =>
      if t.isHeld place then .error .busy t
      else
        match entry with
        | .file _ => .ok () (t.erase place)
        | .directory => removeEmptied path place (t.eraseBelow place)
  | .error refusal, _ => .error refusal t
  | _, .error refusal => .error refusal t

end FileTree
end Amalgam

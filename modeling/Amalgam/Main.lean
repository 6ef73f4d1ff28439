import Amalgam.Command.Run

namespace Amalgam

/-!
# The program

The files that a command line consults are read from the disk into a file tree,
the command line is run on that tree, and what changed in the tree is carried
out on the disk.  All decisions are made by `Command.run`; this file only moves
bytes.
-/

namespace Disk

/-- The path of a place. -/
def pathOf (place : Place) : String :=
  "/" ++ String.intercalate "/" place

/-- Reads what the disk has at a place into a tree. -/
def load (t : FileTree) (place : Place) : IO FileTree := do
  let path := (← IO.currentDir) / pathOf place
  if ← path.isDir then return t.put place .directory
  else if ← path.pathExists then return t.put place (.file (← IO.FS.readBinFile path))
  else return t

/-- Reads the files of paths into a tree, with the directories that lead there. -/
def loadAll (t : FileTree) (paths : List String) : IO FileTree :=
  (paths.flatMap fun path => FileTree.stepsTo (t.placeOf path)).foldlM load t

/-- The part of the disk that a command line consults.  Each round learns more
paths: first the configuration, then the sources, then the headers. -/
def snapshot (arguments : List String) : IO FileTree := do
  let here := Path.components (← IO.currentDir).toString
  let mut t := FileTree.onlyDirectory here
  for _ in [1, 2, 3] do
    t ← loadAll t (Command.consulted arguments t)
  return t

/-- A path in a directory under which the disk has nothing yet. -/
def unusedPath (directory : Place) : IO String := do
  for n in [0:1000000] do
    let path := pathOf (directory ++ [FileTree.temporaryName n])
    if !(← ((← IO.currentDir) / path).pathExists) then return path
  throw (IO.userError ("no free name in " ++ pathOf directory))

/-- Carries out one change.  A file gets its content at once, by a rename. -/
def carryOut (place : Place) : Entry → IO Unit
  | .directory => IO.FS.createDirAll (pathOf place)
  | .file content => do
      let temporary ← unusedPath place.dropLast
      IO.FS.writeBinFile temporary content
      IO.FS.rename temporary (pathOf place)

/-- Carries out what changed between two trees, directories before what they
hold. -/
def carryOutChanges (before after : FileTree) : IO Unit :=
  (after.entriesBelow []).forM fun e => do
    if !(before.get? e.1).any e.2.sameAs then carryOut e.1 e.2

end Disk
end Amalgam

/-- Runs a command line on the disk. -/
def main (arguments : List String) : IO UInt32 := do
  let before ← Amalgam.Disk.snapshot arguments
  let (after, outcome) := Amalgam.Command.run arguments before
  Amalgam.Disk.carryOutChanges before after
  IO.print outcome.stdout
  IO.eprint outcome.stderr
  return UInt32.ofNat outcome.exit

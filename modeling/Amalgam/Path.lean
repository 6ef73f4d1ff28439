namespace Amalgam
namespace Path

/-!
# Paths as text

Paths are strings with slashes.  This file joins them, cuts them into
components and finds the directory of a path.  It works on the text alone:
whether anything exists under a path is the business of a file tree.
-/

/-- A path that starts with a slash begins at the root. -/
def isAbsolute (path : String) : Bool :=
  path.toList.head? == some '/'

/-- The path of `name` below `root`.  An absolute name stands for itself. -/
def join (root name : String) : String :=
  if isAbsolute name || root.isEmpty then name
  else if root.toList.getLast? == some '/' then root ++ name
  else root ++ "/" ++ name

/-- Puts one character in front of a text that is already cut at its slashes. -/
def consPart (c : Char) : List (List Char) → List (List Char)
  | [] => if c = '/' then [[], []] else [[c]]
  | part :: rest => if c = '/' then [] :: part :: rest else (c :: part) :: rest

/-- The components of a path.  Slashes only separate: two of them count as one. -/
def components (path : String) : List String :=
  ((path.toList.foldr consPart []).filter (!·.isEmpty)).map String.ofList

/-- Whether only a directory can be meant: the path ends in a slash, or its last
component is one of the two dots. -/
def meansDirectory (path : String) : Bool :=
  path.toList.getLast? == some '/' ||
    match (components path).getLast? with
    | none => true
    | some last => last == "." || last == ".."

/-- Takes trailing slashes and trailing single dots from a reversed path.  The
root stays, and so does a dot that the path begins with. -/
def dropTail : List Char → List Char
  | '.' :: '/' :: rest => dropTail ('/' :: rest)
  | '/' :: [] => ['/']
  | '/' :: rest => dropTail rest
  | cs => cs

/-- The path without its last component; `none` when there is none to take. -/
def parent? (path : String) : Option String :=
  match dropTail path.toList.reverse with
  | [] => none
  | ['/'] => none
  | cs => some (String.ofList (dropTail (cs.dropWhile (· != '/'))).reverse)

/-- The directory that a file of this path stands in. -/
def directory (path : String) : String :=
  match parent? path with
  | none => "."
  | some parent => if parent.isEmpty then "." else parent

/-- A path and its parents, the nearest first. -/
def lineage (path : String) : List String :=
  match parent? path with
  | none => [path]
  | some parent =>
      if parent.length < path.length then path :: lineage parent else [path]
termination_by path.length

end Path
end Amalgam

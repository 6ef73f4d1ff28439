import Amalgam.FileTree.Refusal
import Amalgam.Trie

namespace Amalgam

/-!
# File trees

A file tree maps places to entries.  A place is the list of names that leads to
it from the root; the root itself is always a directory.  The tree also knows
the working directory, how large a single file may grow, and which places are
fixed, as the place of a file is that something else is mounted on.

There are no links, owners or permissions here.
-/

/-- The names that lead from the root to a file or a directory. -/
abbrev Place := List String

inductive Entry where
  | file (content : ByteArray)
  | directory

namespace Entry

def isDirectory : Entry → Bool
  | .file _ => false
  | .directory => true

/-- Whether two entries are both directories, or files of the same bytes. -/
def sameAs : Entry → Entry → Bool
  | .file content, .file other => content.data == other.data
  | .directory, .directory => true
  | _, _ => false

end Entry

/-- A file system with a working directory. -/
structure FileTree where
  table : Trie Entry
  here : Place
  /-- The most bytes that one file can hold; `none` when there is no bound. -/
  space : Option Nat
  /-- The places that no other file can be moved to.  What stands there can be
  read and written, but not removed. -/
  fixed : List Place

namespace FileTree

def get? (t : FileTree) (place : Place) : Option Entry :=
  if place = [] then some .directory else t.table.find? place

/-- Puts an entry at a place and drops what stood there. -/
def put (t : FileTree) (place : Place) (entry : Entry) : FileTree :=
  { t with table := t.table.set place (some entry) }

def erase (t : FileTree) (place : Place) : FileTree :=
  { t with table := t.table.set place none }

/-- Moves what stands at one place to another, and drops what stood there. -/
def move? (t : FileTree) (source target : Place) : Option FileTree :=
  (t.get? source).map fun entry => (t.erase source).put target entry

/-- Takes away all that stands below a place. -/
def eraseBelow (t : FileTree) (place : Place) : FileTree :=
  { t with table := t.table.prune place }

/-- The names that something stands under, right below a place. -/
def namesIn (t : FileTree) (place : Place) : List String :=
  (t.table.under place).children.map (·.1)

/-- All entries below a place, with the names that lead there from it.  A
directory comes before what it holds. -/
def entriesBelow (t : FileTree) (place : Place) : List (Place × Entry) :=
  Trie.listBelow (t.table.under place).children

/-- The places on the way to a place, the place included. -/
def stepsTo : Place → List Place
  | [] => []
  | name :: rest => [name] :: (stepsTo rest).map (name :: ·)

/-- The tree that holds nothing but its working directory. -/
def onlyDirectory (here : Place) : FileTree :=
  (stepsTo here).foldl (fun t place => t.put place .directory) ⟨Trie.empty, here, none, []⟩

theorem get?_put_self (t : FileTree) {place : Place} (h : place ≠ [])
    (entry : Entry) : (t.put place entry).get? place = some entry := by
  simp [get?, put, h, Trie.find?_set_self]

theorem get?_put_of_ne (t : FileTree) {place other : Place} (h : other ≠ place)
    (entry : Entry) : (t.put place entry).get? other = t.get? other := by
  simp [get?, put, Trie.find?_set_of_ne _ h]

theorem get?_erase_self (t : FileTree) {place : Place} (h : place ≠ []) :
    (t.erase place).get? place = none := by
  simp [get?, erase, h, Trie.find?_set_self]

theorem get?_erase_of_ne (t : FileTree) {place other : Place}
    (h : other ≠ place) : (t.erase place).get? other = t.get? other := by
  simp [get?, erase, Trie.find?_set_of_ne _ h]

theorem move?_of_get? {t : FileTree} {source : Place} {entry : Entry}
    (h : t.get? source = some entry) (target : Place) :
    t.move? source target = some ((t.erase source).put target entry) := by
  rw [move?, h]
  rfl

theorem get?_eq_none_of_not_mem_namesIn {t : FileTree} {place : Place} {name : String}
    (h : name ∉ t.namesIn place) : t.get? (place ++ [name]) = none := by
  simp [get?, Trie.find?_eq_none_of_not_mem h]

end FileTree
end Amalgam

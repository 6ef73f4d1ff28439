namespace Amalgam
namespace Toml

/-!
# TOML values and tables

The values that a TOML document can hold, as far as a configuration tells them
apart: numbers and booleans are all alike here, and so are dates and times.

A table remembers how it came to be, because that decides what may still be
added to it.  A table is implicit until a header names it, and dotted when it
was made on the way to a dotted key.
-/

/-- A table that may still grow. -/
structure Table (α : Type) where
  implicit : Bool
  dotted : Bool
  fields : List (String × α)

inductive Node where
  | text (content : String)
  | scalar
  | moment
  | list (items : List Node)
  /-- A table written in braces, to which nothing can be added. -/
  | closed (fields : List (String × Node))
  /-- A table made by a header or on the way to a key. -/
  | table (content : Table Node)
  /-- The tables of one repeated header: the last one, and those before it. -/
  | tables (last : Table Node) (earlier : List (Table Node))

namespace Table

/-- The table that a document starts with, or one that a header has named. -/
def named : Table Node :=
  ⟨false, false, []⟩

def get? (t : Table Node) (key : String) : Option Node :=
  t.fields.lookup key

/-- Gives a value to a field that is not there yet. -/
def add (t : Table Node) (key : String) (value : Node) : Table Node :=
  { t with fields := (key, value) :: t.fields }

/-- Gives another value to a field that is there. -/
def replace (t : Table Node) (key : String) (value : Node) : Table Node :=
  { t with fields := t.fields.map fun f => if f.1 == key then (key, value) else f }

/-- Changes the table at the end of a path and makes the tables missing on the
way. -/
def descend (dotted : Bool) (change : Table Node → Option (Table Node)) :
    List String → Table Node → Option (Table Node)
  | [], t => change t
  | key :: path, t =>
      match t.get? key with
      | none => do
          let child ← descend dotted change path ⟨true, dotted, []⟩
          return t.add key (.table child)
      | some (.table child) =>
          -- A dotted path may not pass a table that a header has named.
          if dotted && !child.implicit then none
          else do
            let child ← descend dotted change path child
            return t.replace key (.table child)
      -- Through a repeated header the path leads into its last table.
      | some (.tables last earlier) => do
          let last ← descend dotted change path last
          return t.replace key (.tables last earlier)
      | some _ => none

/-- Gives the key at the end of a path a value that it does not have yet. -/
def assign (path : List String) (value : Node) (t : Table Node) : Option (Table Node) := do
  let key ← path.getLast?
  let parents := path.dropLast
  -- A table of a dotted key takes dotted keys only, and any other table plain keys only.
  t.descend true (fun target =>
    if target.dotted == parents.isEmpty || (target.get? key).isSome then none
    else some (target.add key value)) parents

/-- Names the table of a header. -/
def openTable (path : List String) (t : Table Node) : Option (Table Node) := do
  let key ← path.getLast?
  t.descend false (fun parent =>
    match parent.get? key with
    | none => some (parent.add key (.table named))
    | some (.table child) =>
        -- A table made on the way to a key may be named later, once.
        if child.implicit && !child.dotted then
          some (parent.replace key (.table { child with implicit := false }))
        else none
    | some _ => none) path.dropLast

def appendTable (path : List String) (t : Table Node) : Option (Table Node) := do
  let key ← path.getLast?
  t.descend false (fun parent =>
    match parent.get? key with
    | none => some (parent.add key (.tables named []))
    | some (.tables last earlier) => some (parent.replace key (.tables named (last :: earlier)))
    | some _ => none) path.dropLast

/-- The table of assignments made one after the other. -/
def ofAssignments (assignments : List (List String × Node)) : Option (Table Node) :=
  assignments.foldlM (fun t a => t.assign a.1 a.2) named

end Table
end Toml
end Amalgam

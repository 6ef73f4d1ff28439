import Amalgam.Include

namespace Amalgam

/-!
# The header registry

The headers to emit, in emission order.  A header enters at the end and only
once, and an excluded header never enters, whoever offers it.  The registry
does not read files; it is told names, or lines of text to take names from.
-/

/-- The headers to emit, and the names that are kept out. -/
structure Registry where
  headers : List String := []
  excluded : List String := []
deriving DecidableEq

namespace Registry

/-- Whether a name has been admitted. -/
def contains (r : Registry) (name : String) : Bool :=
  r.headers.contains name

/-- Whether a name is kept out. -/
def excludes (r : Registry) (name : String) : Bool :=
  r.excluded.contains name

/-- Adds a name at the end, unless it is present or excluded, and tells whether it was
added. -/
def tryInsert (r : Registry) (name : String) : Bool × Registry :=
  if r.contains name || r.excludes name then (false, r)
  else (true, { r with headers := r.headers ++ [name] })

/-- The registry after a name was offered. -/
def insert (r : Registry) (name : String) : Registry :=
  (r.tryInsert name).2

/-- Whether offering a name adds it, as `tryInsert` tells. -/
def admits (r : Registry) (name : String) : Bool :=
  (r.tryInsert name).1

/-- Offers names one after the other. -/
def insertAll (r : Registry) (names : List String) : Registry :=
  names.foldl insert r

/-- The registry of the seed headers. -/
def ofSeed (seed excluded : List String) : Registry :=
  insertAll { headers := [], excluded := excluded } seed

/-- Offers the names of the local includes among the lines of a file. -/
def scan (r : Registry) (stem : String) (lines : List String) : Registry :=
  r.insertAll (lines.filterMap (Include.name? stem))

theorem admits_eq (r : Registry) (name : String) :
    r.admits name = !(r.contains name || r.excludes name) := by
  rw [admits, tryInsert]
  cases r.contains name || r.excludes name with
  | false => rfl
  | true => rfl

@[simp]
theorem excluded_insert (r : Registry) (name : String) :
    (r.insert name).excluded = r.excluded := by
  unfold insert tryInsert
  split <;> rfl

@[simp]
theorem insertAll_nil (r : Registry) : r.insertAll [] = r := rfl

@[simp]
theorem insertAll_cons (r : Registry) (name : String) (names : List String) :
    r.insertAll (name :: names) = (r.insert name).insertAll names := rfl

theorem insertAll_append (r : Registry) (xs ys : List String) :
    r.insertAll (xs ++ ys) = (r.insertAll xs).insertAll ys :=
  List.foldl_append

@[simp]
theorem excluded_insertAll (r : Registry) (names : List String) :
    (r.insertAll names).excluded = r.excluded := by
  induction names generalizing r with
  | nil => rfl
  | cons name names ih => rw [insertAll_cons, ih, excluded_insert]

end Registry
end Amalgam

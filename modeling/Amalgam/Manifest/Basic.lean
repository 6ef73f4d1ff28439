namespace Amalgam

/-!
# The manifest of an amalgamation

A manifest is the complete description of one amalgamation: which files are
merged and in what order, which headers lead, which are left out, and the texts
injected at the seams.  The order of the sources is taken as given; nothing
here sorts or permutes it.
-/

/-- Everything needed to produce one amalgamated header. -/
structure Manifest where
  /-- The source files, in the order they are emitted. -/
  sources : List String
  /-- The seed headers, emitted first and in this order. -/
  headers : List String
  /-- The headers that never get a block of their own. -/
  excluded : List String
  /-- The header that the epilogue is injected after. -/
  configHeader : String
  /-- What the project's private file names begin with.  When it is empty, every
  quoted include is local. -/
  stem : String
  /-- The macros, any of which enables the implementation section. -/
  macros : List String
  /-- The verbatim text at the top of the document. -/
  prologue : String
  /-- The verbatim text injected after the configuration header. -/
  epilogue : String
deriving DecidableEq

namespace Manifest

/-- The condition that guards the implementation section. -/
def implementationCondition (m : Manifest) : String :=
  String.intercalate " || " (m.macros.map fun x => "defined(" ++ x ++ ")")

/-- The line that opens the implementation section. -/
def openingLine (m : Manifest) : String :=
  "#if " ++ m.implementationCondition ++ "\n"

/-- The line that closes the implementation section. -/
def closingLine (m : Manifest) : String :=
  "#endif /* " ++ m.implementationCondition ++ " */\n"

end Manifest

/-- The line that stands before every relocated file. -/
def markerLine (name : String) : String :=
  "/* === " ++ name ++ " === */\n"

end Amalgam

import Amalgam.Plan.Basic

namespace Amalgam
namespace Plan

/-!
# The text form of a plan

One header or source to a line, indented, under headings.  The list of excluded
headers is left out when it is empty, and the configuration header is marked.
-/

/-- The line of a header. -/
def headerLine (configHeader header : String) : String :=
  if header = configHeader then "  " ++ header ++ " (+ epilogue)\n"
  else "  " ++ header ++ "\n"

/-- The line of any other name. -/
def nameLine (name : String) : String :=
  "  " ++ name ++ "\n"

/-- The section of the excluded headers. -/
def excludedSection (names : List String) : String :=
  if names.isEmpty then "" else "Excluded:\n" ++ String.join (names.map nameLine)

/-- The plan as text. -/
def toText (p : Plan) : String :=
  "Headers:\n" ++ String.join (p.headers.map (headerLine p.configHeader)) ++
    excludedSection p.excluded ++ "#if " ++ p.condition ++ "\n" ++
    String.join (p.sources.map nameLine) ++ "#endif\n"

end Plan
end Amalgam

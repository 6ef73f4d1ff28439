import Amalgam.Plan.Basic

namespace Amalgam

/-!
# The JSON form of a plan

One object with a member for each field, in the order of the fields, indented
by two spaces.  An empty list is written without a line break.  In a string,
the quote, the backslash and the characters below the space are escaped, and
no others.
-/

namespace Json

/-- A character inside a JSON string. -/
def escapeChar (c : Char) : List Char :=
  if c = '"' then ['\\', '"']
  else if c = '\\' then ['\\', '\\']
  else if c = '\x08' then ['\\', 'b']
  else if c = '\t' then ['\\', 't']
  else if c = '\n' then ['\\', 'n']
  else if c = '\x0c' then ['\\', 'f']
  else if c = '\r' then ['\\', 'r']
  else if c.toNat < 0x20 then
    ['\\', 'u', '0', '0', Nat.digitChar (c.toNat / 16), Nat.digitChar (c.toNat % 16)]
  else [c]

/-- A JSON string. -/
def quote (s : String) : String :=
  "\"" ++ String.ofList (s.toList.flatMap escapeChar) ++ "\""

/-- A list of strings that stands as a member of the outermost object. -/
def quoteList : List String → String
  | [] => "[]"
  | items =>
      "[\n" ++ String.intercalate ",\n" (items.map fun item => "    " ++ quote item) ++
        "\n  ]"

/-- A member of the outermost object. -/
def member (key value : String) : String :=
  "  " ++ quote key ++ ": " ++ value

/-- The outermost object. -/
def object (members : List String) : String :=
  "\x7b\n" ++ String.intercalate ",\n" members ++ "\n\x7d"

end Json

/-- The plan as a JSON object. -/
def Plan.toJson (p : Plan) : String :=
  Json.object [
    Json.member "headers" (Json.quoteList p.headers),
    Json.member "sources" (Json.quoteList p.sources),
    Json.member "excluded_headers" (Json.quoteList p.excluded),
    Json.member "config_header" (Json.quote p.configHeader),
    Json.member "guard" (Json.quote p.condition)]

end Amalgam

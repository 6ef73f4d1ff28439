import Amalgam.Toml.Statement

namespace Amalgam
namespace Toml

/-!
# TOML documents

The statements of a document are carried out one after the other on the table
of the document.  A header moves the place where assignments go.  A document is
refused when a statement is malformed or contradicts an earlier one.
-/

/-- A table under construction, and the path of the table that the last header
named. -/
structure Draft where
  root : Table Node
  current : List String

/-- Carries out a statement. -/
def Draft.apply (d : Draft) : Statement → Option Draft
  | .assign key value => do
      let root ← d.root.descend false (Table.assign key value) d.current
      return ⟨root, d.current⟩
  | .header key => do
      return ⟨← d.root.openTable key, key⟩
  | .repeatedHeader key => do
      return ⟨← d.root.appendTable key, key⟩

/-- The text without a byte order mark in front. -/
def dropMark : List Char → List Char
  | '\ufeff' :: rest => rest
  | cs => cs

/-- The table of a document, or `none` if the text is no TOML. -/
def parse? (text : String) : Option (Table Node) := do
  let cs := dropMark text.toList
  let fuel := cs.length + 1
  let statements ← statements? fuel fuel [] cs
  let draft ← statements.foldlM Draft.apply ⟨Table.named, []⟩
  return draft.root

end Toml
end Amalgam

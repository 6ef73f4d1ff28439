import Amalgam.Rendering

namespace Amalgam

/-!
# Plans

The order in which a document would be emitted, without its text.  A plan reads
the sources, because they name the discovered headers, but no header.
-/

/-- The emission order of a document. -/
structure Plan where
  headers : List String
  sources : List String
  excluded : List String
  configHeader : String
  /-- The condition of the implementation section. -/
  condition : String
deriving DecidableEq

/-- The plan of a manifest, whose sources are read from a store. -/
def Manifest.plan (m : Manifest) (store : Store) : Except Failure Plan := do
  m.checked
  let registry ← m.discover store
  return {
    headers := registry.headers
    sources := m.sources
    excluded := m.excluded
    configHeader := m.configHeader
    condition := m.implementationCondition }

end Amalgam

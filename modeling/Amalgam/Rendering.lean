import Amalgam.Discovery
import Amalgam.Emission
import Amalgam.Sha256

namespace Amalgam

/-!
# Rendering

A manifest is validated, its headers are discovered, and the whole document is
written in memory.  Nothing outside is touched, so a run that fails on an input
leaves no partial document behind.
-/

/-- A rendered document. -/
structure Amalgamation where
  /-- The headers in the order they were emitted. -/
  registry : Registry
  document : ByteArray
  stats : Stats

/-- The SHA-256 of the document, in hexadecimal. -/
def Amalgamation.digest (a : Amalgamation) : String :=
  Sha256.digest a.document

namespace Manifest

/-- Accepts a valid manifest; a fault is a failure of the run. -/
def checked (m : Manifest) : Except Failure Unit :=
  m.validate.mapError .invalidManifest

/-- The document with the given registry. -/
def renderWith (m : Manifest) (store : Store) (registry : Registry) :
    Except Failure Amalgamation :=
  let emission := Emission.into Sink.unbounded m registry.headers store
  emission.outcome.map fun stats => ⟨registry, emission.written, stats⟩

/-- The document of a manifest, whose files are read from a store. -/
def render (m : Manifest) (store : Store) : Except Failure Amalgamation := do
  m.checked
  let registry ← m.discover store
  m.renderWith store registry

end Manifest
end Amalgam

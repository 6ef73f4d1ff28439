import Amalgam.Failure
import Amalgam.Registry

namespace Amalgam

/-!
# Header discovery

The seed headers are extended by every private header that a source includes,
in the order of first discovery: sources in manifest order, lines from top to
bottom.  Headers themselves are not scanned, so a header that only another
header includes is not discovered.
-/

/-- Scans the sources in order and stops at the first that cannot be read. -/
def scanSources (store : Store) (stem : String) :
    List String → Registry → Except Failure Registry
  | [], registry => .ok registry
  | source :: sources, registry =>
      match store.read source with
      | .error cause => .error (.unscannable source cause)
      | .ok file => scanSources store stem sources (registry.scan stem file.lines)

namespace Manifest

/-- The registry before any source is scanned. -/
def seedRegistry (m : Manifest) : Registry :=
  Registry.ofSeed m.headers m.excluded

/-- The registry of a manifest, whose sources are read from a store. -/
def discover (m : Manifest) (store : Store) : Except Failure Registry :=
  scanSources store m.stem m.sources m.seedRegistry

end Manifest
end Amalgam

import Amalgam.FileTree.Inputs
import Amalgam.FileTree.Replacement
import Amalgam.Rendering

namespace Amalgam

/-!
# Outputs

Writing the rendered document as a whole, and comparing an existing output with
a fresh rendering.  A document that cannot be rendered leaves the tree alone.
-/

/-- How an output compares with a fresh rendering. -/
inductive Freshness where
  | upToDate
  | stale (expected actual : String)
  | missing
deriving DecidableEq

/-- Whether the output is what would be written. -/
def Freshness.agrees : Freshness → Bool
  | .upToDate => true
  | _ => false

namespace Manifest

/-- Renders the document and writes it to `output`.  A temporary file that could
not be moved stays. -/
def generateKeeping (m : Manifest) (store : Store) (output : String) :
    EStateM FileTree.Abort FileTree Amalgamation := fun t =>
  match m.render store with
  | .error failure => .error (.clean failure) t
  | .ok amalgamation =>
      match FileTree.replaceFileKeeping output amalgamation.document t with
      | .ok _ t => .ok amalgamation t
      | .error abort t => .error abort t

/-- Renders the document and writes it to `output`. -/
def generate (m : Manifest) (store : Store) (output : String) :
    EStateM Failure FileTree Amalgamation :=
  FileTree.discarding (m.generateKeeping store output)

/-- Compares `output` with a fresh rendering. -/
def check (m : Manifest) (store : Store) (output : String) (t : FileTree) :
    Except Failure Freshness := do
  let amalgamation ← m.render store
  if !t.pathExists output then return .missing
  let actual ← t.digestOf output
  if amalgamation.digest = actual then return .upToDate
  else return .stale amalgamation.digest actual

end Manifest
end Amalgam

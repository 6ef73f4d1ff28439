import Amalgam.FileTree.Resolution
import Amalgam.Failure
import Amalgam.Sha256

namespace Amalgam

/-!
# Inputs in a file tree

The files below a directory as a store, and the digest of a file.  Both only
read the tree.
-/

/-- The refusal of an input file, as a store tells it. -/
def InputError.ofRefusal (path : String) : Refusal → InputError
  | .notFound => .missing path
  | refusal => .unreadable path refusal

namespace FileTree

/-- The store of the files below a directory. -/
def storeAt (t : FileTree) (root : String) : Store := fun name =>
  let path := Path.join root name
  match t.read path with
  | .error refusal => .error (.ofRefusal path refusal)
  | .ok bytes => (Utf8.decode bytes).mapError (.notText path)

/-- How many bytes one read of a file returns at most. -/
def readSize : Nat := 8192

/-- Content as a sequence of reads, none of them empty. -/
def readsOf (content : ByteArray) : List ByteArray :=
  if content.size = 0 then []
  else content.extract 0 readSize :: readsOf (content.extract readSize content.size)
termination_by content.size
decreasing_by rw [ByteArray.size_extract, readSize]; omega

/-- The SHA-256 of a file, in hexadecimal. -/
def digestOf (t : FileTree) (path : String) : Except Failure String :=
  match t.open? path with
  | .error refusal => .error (.digestNotOpened path refusal)
  | .ok .directory => .error (.digestNotRead path .isDirectory)
  | .ok (.file content) => .ok (Sha256.digestReads (readsOf content))

end FileTree

end Amalgam

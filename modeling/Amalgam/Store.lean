import Amalgam.FileTree.Refusal
import Amalgam.Text.Line
import Amalgam.Utf8

namespace Amalgam

/-!
# Stores of named input files

A store answers a file name with the content of that file or with the reason
why there is none.  It is a function, so reading the same name twice gives the
same answer.  Where the content comes from is not its concern.
-/

/-- Why a store has no content for a name. -/
inductive InputError where
  | missing (path : String)
  | unreadable (path : String) (cause : Refusal)
  | notText (path : String) (cause : Utf8.Fault)
deriving DecidableEq

/-- What a user reads. -/
def InputError.message : InputError → String
  | .missing path => "input file not found: " ++ path
  | .unreadable path cause =>
      "failed to read input file: " ++ path ++ ": " ++ cause.message
  | .notText path cause =>
      "input file is not valid UTF-8: " ++ path ++ ": " ++ cause.message

/-- Named input files. -/
abbrev Store := String → Except InputError String

/-- A file as it is relocated: its name, and its lines with their terminators. -/
structure InputFile where
  name : String
  lines : List String
deriving DecidableEq

/-- The file of a name and a content. -/
def InputFile.ofContent (name content : String) : InputFile :=
  ⟨name, Text.linesOf content⟩

/-- The named file of a store, cut into lines. -/
def Store.read (store : Store) (name : String) : Except InputError InputFile :=
  (store name).map (InputFile.ofContent name)

/-- The store that holds the listed files and no others. -/
def Store.ofList (files : List (String × String)) : Store := fun name =>
  match files.lookup name with
  | some content => .ok content
  | none => .error (.missing name)

end Amalgam

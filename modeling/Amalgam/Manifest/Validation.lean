import Amalgam.Manifest.Basic

namespace Amalgam
namespace Manifest

/-!
# Valid manifests

The conditions under which a manifest can give a well-formed amalgamation, and
the fault that is reported when one fails.  The conditions are tried in one
fixed order, and of the names that violate a condition the first is reported.

Validation looks at the manifest alone.  It does not ask whether the files
exist, nor whether a source is also named as a header.
-/

/-- Why a manifest cannot give a well-formed amalgamation. -/
inductive Fault where
  | noSources
  | duplicateSource (name : String)
  | duplicateHeader (name : String)
  | excludedSeedHeader (name : String)
  | configHeaderNotSeeded (name : String)
  | noImplementationMacros
  | invalidMacro (name : String)
deriving DecidableEq

/-- What a user reads. -/
def Fault.message : Fault → String
  | .noSources => "manifest lists no source files"
  | .duplicateSource name =>
      "source file `" ++ name ++ "` is listed more than once"
  | .duplicateHeader name =>
      "header `" ++ name ++ "` is listed more than once in the seed headers"
  | .excludedSeedHeader name =>
      "header `" ++ name ++ "` is both a seed header and excluded"
  | .configHeaderNotSeeded name =>
      "configuration header `" ++ name ++ "` is not one of the seed headers"
  | .noImplementationMacros => "at least one implementation macro is required"
  | .invalidMacro name =>
      "implementation macro `" ++ name ++ "` is not a valid C identifier"

/-- The first name of `names` that stands in `seen` or before itself. -/
def firstRepeatedAfter? (seen : List String) : List String → Option String
  | [] => none
  | name :: names =>
      if name ∈ seen then some name else firstRepeatedAfter? (name :: seen) names

/-- The first name that is listed a second time. -/
def firstRepeated? (names : List String) : Option String :=
  firstRepeatedAfter? [] names

/-- A character that an identifier can begin with. -/
def isIdentifierStart (c : Char) : Bool :=
  c == '_' || c.isAlpha

/-- A character that an identifier can go on with. -/
def isIdentifierRest (c : Char) : Bool :=
  c == '_' || c.isAlphanum

/-- Whether a text is a C identifier.  Letters and digits are those of ASCII. -/
def isIdentifier (s : String) : Bool :=
  match s.toList with
  | [] => false
  | c :: cs => isIdentifierStart c && cs.all isIdentifierRest

/-- The first condition that a manifest violates, in the order of reporting. -/
def fault? (m : Manifest) : Option Fault :=
  if m.sources.isEmpty then some .noSources
  else if let some name := firstRepeated? m.sources then some (.duplicateSource name)
  else if let some name := firstRepeated? m.headers then some (.duplicateHeader name)
  else if let some name := m.headers.find? (m.excluded.contains ·) then
    some (.excludedSeedHeader name)
  else if !m.headers.contains m.configHeader then
    some (.configHeaderNotSeeded m.configHeader)
  else if m.macros.isEmpty then some .noImplementationMacros
  else if let some name := m.macros.find? (!isIdentifier ·) then
    some (.invalidMacro name)
  else none

/-- Accepts a manifest that violates no condition. -/
def validate (m : Manifest) : Except Fault Unit :=
  match m.fault? with
  | some fault => .error fault
  | none => .ok ()

theorem validate_eq_ok_iff {m : Manifest} :
    m.validate = .ok () ↔ m.fault? = none := by
  unfold validate
  split <;> simp [*]

end Manifest
end Amalgam

import Amalgam.FileTree.Resolution
import Amalgam.Failure
import Amalgam.Manifest.LuaProfile
import Amalgam.Toml.Document

namespace Amalgam

/-!
# Configuration

A configuration sets some of eleven options and leaves the others alone.
Configurations are layered: the later one wins, option by option.  What no layer
sets is taken from the built-in manifest and the default locations.

Keys that name no option are ignored, but an option of the wrong type makes the
whole configuration malformed.
-/

/-- The options of a project, each set or not. -/
structure Config where
  /-- The directory that file names are resolved against. -/
  sourceDir : Option String := none
  /-- Where the amalgamated header goes. -/
  output : Option String := none
  sources : Option (List String) := none
  headers : Option (List String) := none
  excluded : Option (List String) := none
  configHeader : Option String := none
  stem : Option String := none
  macros : Option (List String) := none
  /-- The release that the built-in prologue names. -/
  version : Option String := none
  prologue : Option String := none
  epilogue : Option String := none
deriving DecidableEq

namespace Config

/-- The name of the configuration file that is looked for. -/
def fileName : String :=
  "Amalgam.toml"

/-- Where the files are when no configuration says otherwise. -/
def defaultSourceDir : String :=
  "lua"

/-- Where the header goes when no configuration says otherwise. -/
def defaultOutput : String :=
  "luamalg.h"

/-- Lays one configuration over another.  What the layer sets, wins. -/
def merge (base layer : Config) : Config where
  sourceDir := layer.sourceDir <|> base.sourceDir
  output := layer.output <|> base.output
  sources := layer.sources <|> base.sources
  headers := layer.headers <|> base.headers
  excluded := layer.excluded <|> base.excluded
  configHeader := layer.configHeader <|> base.configHeader
  stem := layer.stem <|> base.stem
  macros := layer.macros <|> base.macros
  version := layer.version <|> base.version
  prologue := layer.prologue <|> base.prologue
  epilogue := layer.epilogue <|> base.epilogue

/-- The built-in manifest with the options of a configuration put in. -/
def manifest (c : Config) : Manifest :=
  let builtIn := Manifest.lua (c.version.getD LuaProfile.defaultVersion)
  { sources := c.sources.getD builtIn.sources
    headers := c.headers.getD builtIn.headers
    excluded := c.excluded.getD builtIn.excluded
    configHeader := c.configHeader.getD builtIn.configHeader
    stem := c.stem.getD builtIn.stem
    macros := c.macros.getD builtIn.macros
    prologue := c.prologue.getD builtIn.prologue
    epilogue := c.epilogue.getD builtIn.epilogue }

/-- The directory that file names are resolved against. -/
def resolvedSourceDir (c : Config) : String :=
  c.sourceDir.getD defaultSourceDir

/-- Where the amalgamated header goes. -/
def resolvedOutput (c : Config) : String :=
  c.output.getD defaultOutput

/-! ## Reading -/

/-- The value of each option of a section, by key; `none` for a section that is
none. -/
def sectionOf (keys : List String) : Toml.Node → Option (String → Option Toml.Node)
  | .closed fields => some fun key => fields.lookup key
  | .table content => some fun key => content.fields.lookup key
  -- A list gives the options in the order of `keys`.
  | .list items => some fun key => (keys.zip items).lookup key
  | .tables last earlier =>
      some fun key => (keys.zip ((last :: earlier).reverse.map .table)).lookup key
  -- A date stands for a section that sets nothing.
  | .moment => some fun _ => none
  | .text _ => none
  | .scalar => none

def textOf : Toml.Node → Option String
  | .text content => some content
  | _ => none

def namesOf : Toml.Node → Option (List String)
  | .list items => items.mapM textOf
  | _ => none

/-- An option that may be absent, but not of the wrong type. -/
def optional {α : Type} (read : Toml.Node → Option α) :
    Option Toml.Node → Option (Option α)
  | none => some none
  | some node => (read node).map some

def sectionIn (root : Toml.Table Toml.Node) (name : String) (keys : List String) :
    Option (String → Option Toml.Node) :=
  match root.get? name with
  | none => some fun _ => none
  | some node => sectionOf keys node

/-- The configuration that a document holds, unless an option has the wrong
type. -/
def ofTable (root : Toml.Table Toml.Node) : Option Config := do
  let paths ← sectionIn root "paths" ["source_dir", "output"]
  let amalgam ← sectionIn root "amalgam"
    ["sources", "headers", "exclude", "config_header", "include_prefix",
     "implementation_macros", "lua_version", "prologue", "epilogue"]
  return {
    sourceDir := ← optional textOf (paths "source_dir")
    output := ← optional textOf (paths "output")
    sources := ← optional namesOf (amalgam "sources")
    headers := ← optional namesOf (amalgam "headers")
    excluded := ← optional namesOf (amalgam "exclude")
    configHeader := ← optional textOf (amalgam "config_header")
    stem := ← optional textOf (amalgam "include_prefix")
    macros := ← optional namesOf (amalgam "implementation_macros")
    version := ← optional textOf (amalgam "lua_version")
    prologue := ← optional textOf (amalgam "prologue")
    epilogue := ← optional textOf (amalgam "epilogue") }

def ofBytes (path : String) (bytes : ByteArray) : Except Failure Config :=
  match String.fromUTF8? bytes with
  | none => .error (.configUnread path .notText)
  | some text =>
      match (Toml.parse? text).bind ofTable with
      | none => .error (.configMalformed path)
      | some config => .ok config

def ofFile (t : FileTree) (path : String) : Except Failure Config :=
  match t.read path with
  | .error refusal => .error (.configUnread path (.unreadable refusal))
  | .ok bytes => ofBytes path bytes

/-- The configuration file to read: the one asked for, or the one in `dir` if
there is one. -/
def fileToRead (t : FileTree) (explicit : Option String) (dir : String) : Option String :=
  match explicit with
  | some path => some path
  | none =>
      let path := Path.join dir fileName
      if t.pathExists path then some path else none

/-- The configuration of a project. -/
def load (t : FileTree) (explicit : Option String) (dir : String) : Except Failure Config :=
  match fileToRead t explicit dir with
  -- A file that is asked for has to exist, but there may be none at all.
  | none => .ok {}
  | some path => (ofFile t path).map (merge {})

end Config
end Amalgam

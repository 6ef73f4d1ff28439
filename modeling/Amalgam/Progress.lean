import Amalgam.Output

namespace Amalgam

/-!
# Progress reports

What a run reports while it works, as data.  The reports of a run follow from
its inputs alone, so they are computed beside the run and not by it: they stop
where the run stops, at the first file that cannot be read.
-/

inductive Event where
  | configUsed (path : String)
  | sourcesFrom (directory : String)
  | discovering (sources : Nat)
  | discovered (header source : String)
  | excludedSkipped (header source : String)
  | writingPrologue
  | writingHeader (name : String)
  | writingSource (name : String)
  | wrote (output : String) (stats : Stats)
  | commentedOut (includes : Nat) (digest : String)
  | digestsDiffer (expected actual : String)
deriving DecidableEq

namespace Event

/-- Whether a report is shown only to those who ask for every detail. -/
def isDetail : Event → Bool
  | .writingHeader _ | .writingSource _ | .wrote _ _ | .commentedOut _ _ => false
  | _ => true

def message : Event → String
  | .configUsed path => "Using " ++ path
  | .sourcesFrom directory => "Sources from " ++ directory
  | .discovering sources => s!"Discovering headers from {sources} sources"
  | .discovered header source =>
      "Discovered " ++ header ++ " (from " ++ source ++ ")"
  | .excludedSkipped header source =>
      "Skipping excluded " ++ header ++ " (from " ++ source ++ ")"
  | .writingPrologue => "Writing prologue"
  | .writingHeader name => "Header " ++ name
  | .writingSource name => "Source " ++ name
  | .wrote output stats =>
      "Wrote " ++ output ++
        s!" ({stats.headers} headers, {stats.sources} sources, {stats.lines} lines)"
  | .commentedOut includes digest =>
      s!"{includes} include directives commented out, sha256 {digest}"
  | .digestsDiffer expected actual =>
      "expected sha256 " ++ expected ++ ", found " ++ actual

/-- A character as a terminal may safely receive it.  Control characters that
could start an escape sequence are spelled out. -/
def terminalSafe (c : Char) : List Char :=
  let hex := fun n => [Nat.digitChar (n / 16), Nat.digitChar (n % 16)]
  if c = '\x1b' ∨ c = '\x07' ∨ c = '\x08' ∨ c = '\x0c' ∨ c = '\x7f' then
    ['\\', 'x'] ++ hex c.toNat
  else if 0x80 ≤ c.toNat ∧ c.toNat ≤ 0x9F then
    ['\\', 'u', '\x7b'] ++ hex c.toNat ++ ['\x7d']
  else [c]

def line (e : Event) : String :=
  (if e.isDetail then "DEBUG " else " INFO ") ++
    String.ofList (e.message.toList.flatMap terminalSafe) ++ "\n"

end Event

/-- The log that is shown of some reports. -/
def logOf (verbose : Bool) (events : List Event) : String :=
  String.join ((events.filter fun e => verbose || !e.isDetail).map Event.line)

/-- The reports of scanning the lines of a source. -/
def lineEvents (stem source : String) : List String → Registry → List Event
  | [], _ => []
  | line :: lines, registry =>
      match Include.name? stem line with
      | none => lineEvents stem source lines registry
      | some header =>
          let (added, next) := registry.tryInsert header
          let event :=
            if added then [.discovered header source]
            else if next.excludes header then [.excludedSkipped header source]
            else []
          event ++ lineEvents stem source lines next

def sourceEvents (store : Store) (stem : String) : List String → Registry → List Event
  | [], _ => []
  | source :: sources, registry =>
      match store.read source with
      | .error _ => []
      | .ok file =>
          lineEvents stem source file.lines registry ++
            sourceEvents store stem sources (registry.scan stem file.lines)

def partEvents (store : Store) : List Part → List Event
  | [] => []
  | .text _ :: parts => partEvents store parts
  | .header name :: parts =>
      .writingHeader name :: if (store.read name).isOk then partEvents store parts else []
  | .source name :: parts =>
      .writingSource name :: if (store.read name).isOk then partEvents store parts else []

namespace Manifest

def discoveryEvents (m : Manifest) (store : Store) : List Event :=
  sourceEvents store m.stem m.sources m.seedRegistry

def planEvents (m : Manifest) (store : Store) : List Event :=
  if m.checked.isOk then m.discoveryEvents store else []

def renderEvents (m : Manifest) (store : Store) : List Event :=
  if m.checked.isOk then
    [.discovering m.sources.length] ++ m.discoveryEvents store ++
      match m.discover store with
      | .error _ => []
      | .ok registry => .writingPrologue :: partEvents store (m.outline registry.headers)
  else []

end Manifest
end Amalgam

import Amalgam.Command.Help
import Amalgam.Command.Line
import Amalgam.Config
import Amalgam.Plan.Json
import Amalgam.Plan.Text
import Amalgam.Progress

namespace Amalgam
namespace Command

/-!
# Running a command

A command line is run on a file tree.  The result is the tree afterwards, what
was printed, and the exit code.

A command that fails ends the program at once.  So a temporary file that could
not take the place of the output stays in the tree.
-/

/-- How a run of the program ended. -/
structure Outcome where
  exit : Nat
  stdout : String
  stderr : String
deriving DecidableEq

structure Settings where
  manifest : Manifest
  sourceDir : String
  output : String
deriving DecidableEq

/-- The settings from the options and the configuration: an option wins over
the configuration, and the configuration over the defaults. -/
def Settings.resolve (options : Options) (config : Config) : Settings where
  manifest := config.manifest
  sourceDir := options.sourceDir.getD config.resolvedSourceDir
  output := options.output.getD config.resolvedOutput

def settings (t : FileTree) (options : Options) : Except Failure Settings :=
  (Config.load t options.configFile t.workingDirectory).map (Settings.resolve options)

/-- The reports of finding the settings. -/
def settingsEvents (t : FileTree) (options : Options) : List Event :=
  let found := match options.configFile with
    | some _ => []
    | none =>
        match Config.fileToRead t none t.workingDirectory with
        | some path => [.configUsed path]
        | none => []
  match settings t options with
  | .error _ => found
  | .ok s => found ++ [.sourcesFrom s.sourceDir]

/-- What a command adds to the log and prints, and the message with which it
fails. -/
structure Report where
  events : List Event
  stdout : String
  failure : Option String

def Report.failed (events : List Event) (message : String) : Report :=
  ⟨events, "", some message⟩

def Report.outcome (r : Report) (verbose : Bool) : Outcome :=
  match r.failure with
  | none => ⟨0, r.stdout, logOf verbose r.events⟩
  | some message => ⟨1, r.stdout, logOf verbose r.events ++ "error: " ++ message ++ "\n"⟩

def generate (s : Settings) (t : FileTree) : FileTree × Report :=
  let store := t.storeAt s.sourceDir
  let events := s.manifest.renderEvents store
  match s.manifest.generateKeeping store s.output t with
  | .error abort t => (t, .failed events abort.failure.message)
  | .ok a t =>
      (t, ⟨events ++ [.wrote s.output a.stats,
        .commentedOut a.stats.commentedOut a.digest], "", none⟩)

/-- What to do about an output that is missing or stale. -/
def generateHint : String :=
  "\nhelp: Run `luamalg generate`"

/-- Fails if the output is missing or out of date. -/
def check (s : Settings) (t : FileTree) : Report :=
  let store := t.storeAt s.sourceDir
  let events := s.manifest.renderEvents store
  match s.manifest.check store s.output t with
  | .error failure => .failed events failure.message
  | .ok .upToDate => ⟨events, s.output ++ " is up to date\n", none⟩
  | .ok .missing => .failed events (s.output ++ " does not exist" ++ generateHint)
  | .ok (.stale expected actual) =>
      .failed (events ++ [.digestsDiffer expected actual])
        (s.output ++ " is out of date" ++ generateHint)

def plan (s : Settings) (json : Bool) (t : FileTree) : Report :=
  let store := t.storeAt s.sourceDir
  let events := s.manifest.planEvents store
  match s.manifest.plan store with
  | .error failure => .failed events failure.message
  | .ok p => ⟨events, if json then p.toJson ++ "\n" else p.toText, none⟩

/-- Does a task with its settings.  Only `generate` changes the tree. -/
def perform (task : Task) (s : Settings) (t : FileTree) : FileTree × Report :=
  match task with
  | .generate => generate s t
  | .check => (t, check s t)
  | .plan json => (t, plan s json t)

/-- Finds the settings of a task and does it. -/
def execute (task : Task) (options : Options) (t : FileTree) : FileTree × Outcome :=
  let found := settingsEvents t options
  match settings t options with
  | .error failure =>
      (t, (Report.failed found failure.message).outcome options.verbose)
  | .ok s =>
      let (t, report) := perform task s t
      (t, { report with events := found ++ report.events }.outcome options.verbose)

def run (arguments : List String) (t : FileTree) : FileTree × Outcome :=
  match read arguments with
  | .ok (.task task options) => execute task options t
  | .ok (.completions shell) => (t, ⟨0, completionScript shell, ""⟩)
  | .error .misused => (t, ⟨2, "", misuseText⟩)
  | .error .helpWanted => (t, ⟨0, helpText, ""⟩)
  | .error .versionWanted => (t, ⟨0, versionText, ""⟩)

/-- The paths whose files decide how a command line runs, as far as the tree
tells.  The configuration names the sources, and the sources name the headers. -/
def consulted (arguments : List String) (t : FileTree) : List String :=
  match read arguments with
  | .ok (.task _ options) =>
      let config := options.configFile.getD (Path.join t.workingDirectory Config.fileName)
      config ::
        match settings t options with
        | .error _ => []
        | .ok s =>
            let headers := match s.manifest.discover (t.storeAt s.sourceDir) with
              | .ok registry => registry.headers
              | .error _ => []
            s.output :: (s.manifest.sources ++ headers).map (Path.join s.sourceDir)
  | _ => []

end Command
end Amalgam

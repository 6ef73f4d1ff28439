namespace Amalgam
namespace Command

/-!
# The command line

Arguments are read one by one, first at the outer level and, once a command is
named, at the level of that command.  Reading stops at the first argument that
is wrong or that asks for help.  The common options may stand at either level;
what the inner level says wins.

A value that is an argument of its own is judged late: when more of its own level
is read, or when that level ends.  The outer level ends after the inner one, so
help that is asked for behind such a value comes before a fault in it.
-/

inductive Verb where
  | generate
  | check
  | plan
  | completions
deriving DecidableEq

/-- The command of a name.  Names are not abbreviated. -/
def Verb.named? (name : String) : Option Verb :=
  [("generate", .generate), ("check", .check), ("plan", .plan),
    ("completions", .completions)].lookup name

/-- Why there is nothing to run. -/
inductive Stop where
  | misused
  | helpWanted
  | versionWanted
deriving DecidableEq

/-- The options that take a value. -/
inductive ValueOption where
  | configFile
  | sourceDir
  | output
deriving DecidableEq

/-- The options given at one level. -/
structure Options where
  verbose : Bool := false
  json : Bool := false
  configFile : Option String := none
  sourceDir : Option String := none
  output : Option String := none
  shell : Option String := none
deriving DecidableEq

namespace Options

def get? (o : Options) : ValueOption → Option String
  | .configFile => o.configFile
  | .sourceDir => o.sourceDir
  | .output => o.output

def set (o : Options) : ValueOption → String → Options
  | .configFile, value => { o with configFile := some value }
  | .sourceDir, value => { o with sourceDir := some value }
  | .output, value => { o with output := some value }

/-- Gives an option a value, once and not an empty one. -/
def give (o : Options) (option : ValueOption) (value : String) : Except Stop Options :=
  if (o.get? option).isSome || value.isEmpty then .error .misused
  else .ok (o.set option value)

/-- Asks for every detail, once. -/
def beVerbose (o : Options) : Except Stop Options :=
  if o.verbose then .error .misused else .ok { o with verbose := true }

def wantJson (o : Options) : Except Stop Options :=
  if o.json then .error .misused else .ok { o with json := true }

/-- The options of the outer level with those of the inner level over them. -/
def merge (outer inner : Options) : Options where
  verbose := outer.verbose || inner.verbose
  json := outer.json || inner.json
  configFile := inner.configFile <|> outer.configFile
  sourceDir := inner.sourceDir <|> outer.sourceDir
  output := inner.output <|> outer.output
  shell := inner.shell <|> outer.shell

end Options

/-- The shells that completions can be made for. -/
def shells : List String :=
  ["bash", "elvish", "fish", "powershell", "zsh"]

/-- What a level has still to do about the option read last: nothing, to get its
value, or to judge the value it has got. -/
inductive Pending where
  | nothing
  | awaits (option : ValueOption)
  | holds (option : ValueOption) (value : String)
deriving DecidableEq

/-- The options with what is pending done. -/
def Pending.settle : Pending → Options → Except Stop Options
  | .nothing, options => .ok options
  -- The value never came.
  | .awaits _, _ => .error .misused
  | .holds option value, options => options.give option value

/-- Reads the letters of a short option. -/
def readLetters (verb : Option Verb) : List Char → Options → Except Stop (Options × Pending)
  | [], options => .ok (options, .nothing)
  | 'v' :: letters, options => do readLetters verb letters (← options.beVerbose)
  | 'h' :: _, _ => .error .helpWanted
  | 'V' :: _, _ => .error (if verb = none then .versionWanted else .misused)
  -- The value is the rest of the argument, or else the next argument.
  | ['o'], options => .ok (options, .awaits .output)
  | 'o' :: '=' :: value, options => do
      return (← options.give .output (String.ofList value), .nothing)
  | 'o' :: value, options => do
      return (← options.give .output (String.ofList value), .nothing)
  | _, _ => .error .misused

def valueOption? (name : String) : Option ValueOption :=
  [("manifest", .configFile), ("source-dir", .sourceDir), ("output", .output)].lookup name

def readLong (verb : Option Verb) (name : String) (value : Option String)
    (options : Options) : Except Stop (Options × Pending) :=
  match valueOption? name, value with
  | some option, some value => do return (← options.give option value, .nothing)
  | some option, none => .ok (options, .awaits option)
  | none, some _ => .error .misused
  | none, none =>
      if name = "help" then .error .helpWanted
      else if name = "version" ∧ verb = none then .error .versionWanted
      else if name = "verbose" then do return (← options.beVerbose, .nothing)
      else if name = "json" ∧ verb = some .plan then do return (← options.wantJson, .nothing)
      else .error .misused

/-- Reads an argument that stands for itself. -/
def readPlain (verb : Option Verb) (argument : String) (options : Options) :
    Except Stop Options :=
  -- Only the name of a shell is such an argument.
  if verb = some .completions ∧ options.shell = none ∧ argument ∈ shells then
    .ok { options with shell := some argument }
  else .error .misused

/-- What the arguments after `help` ask for: nothing, or one command. -/
def helpFor : List String → Stop
  | [] => .helpWanted
  | [name] => if (Verb.named? name).isSome || name = "help" then .helpWanted else .misused
  | _ => .misused

/-- Whether an argument looks like an option.  A single dash does not. -/
def isOption (argument : String) : Bool :=
  argument.toList.head? == some '-' && argument != "-"

def readOption (verb : Option Verb) (argument : String) (options : Options) :
    Except Stop (Options × Pending) :=
  match argument.toList with
  | '-' :: '-' :: body =>
      let name := body.takeWhile (· != '=')
      let value := match body.drop name.length with
        | _ :: value => some (String.ofList value)
        | [] => none
      readLong verb (String.ofList name) value options
  | _ :: letters => readLetters verb letters options
  | [] => .error .misused

/-- What one level gives: its options, what is pending there and, at the outer
level, the command named there with the arguments after it. -/
structure Level where
  options : Options
  pending : Pending
  next : Option (Verb × List String)

def Level.settle (level : Level) : Except Stop Options :=
  level.pending.settle level.options

def readAllPlain (verb : Option Verb) : List String → Options → Except Stop Options
  | [], options => .ok options
  | argument :: arguments, options => do
      readAllPlain verb arguments (← readPlain verb argument options)

/-- Reads one level, at the outer one up to the name of a command or `help`. -/
def readLevel (verb : Option Verb) : List String → Options → Pending → Except Stop Level
  | [], options, pending => .ok ⟨options, pending, none⟩
  | argument :: arguments, options, .awaits option =>
      if isOption argument then .error .misused
      else readLevel verb arguments options (.holds option argument)
  | argument :: arguments, options, pending =>
      if argument = "--" then do
        return ⟨← readAllPlain verb arguments (← pending.settle options), .nothing, none⟩
      else if isOption argument then do
        let (options, pending) ← readOption verb argument (← pending.settle options)
        readLevel verb arguments options pending
      else
        -- The name of a command leaves what is pending as it is.
        match verb, Verb.named? argument with
        | none, some next => .ok ⟨options, pending, some (next, arguments)⟩
        | _, _ =>
            if verb = none ∧ argument = "help" then .error (helpFor arguments)
            else do
              let options ← readPlain verb argument (← pending.settle options)
              readLevel verb arguments options .nothing

/-- A command that works on the files of a project. -/
inductive Task where
  | generate
  | check
  | plan (json : Bool)
deriving DecidableEq

inductive Invocation where
  | task (task : Task) (options : Options)
  | completions (shell : String)
deriving DecidableEq

/-- The invocation of a command with its options.  Completions need a shell. -/
def Invocation.of (verb : Verb) (options : Options) : Except Stop Invocation :=
  match verb, options.shell with
  | .generate, _ => .ok (.task .generate options)
  | .check, _ => .ok (.task .check options)
  | .plan, _ => .ok (.task (.plan options.json) options)
  | .completions, some shell => .ok (.completions shell)
  | .completions, none => .error .misused

/-- Reads a whole command line. -/
def read (arguments : List String) : Except Stop Invocation := do
  let outer ← readLevel none arguments {} .nothing
  match outer.next with
  -- Without a command, the header is generated.
  | none => Invocation.of .generate (← outer.settle)
  | some (verb, arguments) =>
      let inner ← (← readLevel (some verb) arguments {} .nothing).settle
      Invocation.of verb ((← outer.settle).merge inner)

end Command
end Amalgam

import Amalgam.Manifest.Validation
import Amalgam.Sink
import Amalgam.Store

namespace Amalgam

/-!
# Failures of a run

Every way in which an operation of this library can fail, with the message a
user sees.  A message gives the context first and the cause last, joined by a
colon and a space.
-/

/-- Why a configuration file cannot be read. -/
inductive ConfigFault where
  | unreadable (cause : Refusal)
  | notText
deriving DecidableEq

/-- What a user reads. -/
def ConfigFault.message : ConfigFault → String
  | .unreadable cause => cause.message
  | .notText => "stream did not contain valid UTF-8"

/-- Why an operation fails. -/
inductive Failure where
  | invalidManifest (fault : Manifest.Fault)
  /-- A source cannot be read for its includes. -/
  | unscannable (source : String) (cause : InputError)
  | headerUnread (header : String) (cause : InputError)
  | sourceUnread (source : String) (cause : InputError)
  | unwritten (cause : SinkFault)
  | unflushed (cause : SinkFault)
  | configUnread (path : String) (cause : ConfigFault)
  /-- The configuration is not TOML, or an option has the wrong type. -/
  | configMalformed (path : String)
  | directoryNotCreated (path : String) (cause : Refusal)
  | temporaryNotCreated (directory : String)
  /-- The content did not fit into the temporary file. -/
  | contentNotWritten (path : String) (cause : Refusal)
  /-- The temporary file could not take the place of the destination. -/
  | notReplaced (path : String)
  | digestNotOpened (path : String) (cause : Refusal)
  | digestNotRead (path : String) (cause : Refusal)
deriving DecidableEq

/-- Contexts and a cause, joined into one message. -/
def joinCauses (parts : List String) : String :=
  String.intercalate ": " parts

/-- What a user reads. -/
def Failure.message : Failure → String
  | .invalidManifest fault =>
      joinCauses ["invalid amalgamation manifest", fault.message]
  | .unscannable source cause =>
      joinCauses ["failed to scan `" ++ source ++ "` for includes", cause.message]
  | .headerUnread header cause =>
      joinCauses ["failed to read header `" ++ header ++ "`", cause.message]
  | .sourceUnread source cause =>
      joinCauses ["failed to read source `" ++ source ++ "`", cause.message]
  | .unwritten cause => joinCauses ["failed to write amalgamation", cause.message]
  | .unflushed cause => joinCauses ["failed to flush amalgamation", cause.message]
  | .configUnread path cause =>
      joinCauses ["failed to read config", path, cause.message]
  | .configMalformed path => joinCauses ["failed to parse config", path]
  | .directoryNotCreated path cause =>
      joinCauses ["failed to create directory", path, cause.message]
  | .temporaryNotCreated directory =>
      "failed to create temporary file in " ++ directory
  | .contentNotWritten path cause =>
      joinCauses ["failed to write file", path, cause.message]
  | .notReplaced path => joinCauses ["failed to write file", path]
  | .digestNotOpened path cause =>
      joinCauses ["failed to open file for hashing", path, cause.message]
  | .digestNotRead path cause =>
      joinCauses ["failed to read file for hashing", path, cause.message]

end Amalgam

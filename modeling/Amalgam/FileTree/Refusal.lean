namespace Amalgam

/-!
# Refusals of the file system

Why a request to the file system is refused, with the text that a user sees.
-/

/-- Why the file system refuses a request. -/
inductive Refusal where
  | notFound
  | alreadyExists
  | notDirectory
  | isDirectory
  | noSpace
  | nameTooLong
  /-- Something holds on to what the request is about. -/
  | busy
  /-- A request that makes no sense for this path. -/
  | invalidArgument
  /-- A path that holds a NUL character names nothing. -/
  | nulInPath
deriving DecidableEq

namespace Refusal

/-- What a user reads. -/
def message : Refusal → String
  | .notFound => "No such file or directory (os error 2)"
  | .alreadyExists => "File exists (os error 17)"
  | .notDirectory => "Not a directory (os error 20)"
  | .isDirectory => "Is a directory (os error 21)"
  | .noSpace => "No space left on device (os error 28)"
  | .nameTooLong => "File name too long (os error 36)"
  | .busy => "Device or resource busy (os error 16)"
  | .invalidArgument => "Invalid argument (os error 22)"
  | .nulInPath => "file name contained an unexpected NUL byte"

end Refusal
end Amalgam

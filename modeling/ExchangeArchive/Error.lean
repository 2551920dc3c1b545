/-
What can go wrong while exchanges are recorded.

Each error names its cause. A failed rotation wraps the error of the file that failed;
an error of a middleware shows as itself, and so do the causes behind it.
-/

set_option autoImplicit false

namespace ExchangeArchive

/-- Why the operating system refused an operation. -/
inductive SystemFault where
  | notFound
  | notDirectory
  | isDirectory
  | invalidArgument
  | nameTooLong
  | networkUnreachable
  | timedOut
  | refused
  | hostUnreachable
  deriving DecidableEq, Repr

/-- The wording of a fault, with its number. -/
def SystemFault.message : SystemFault → String
  | .notFound => "No such file or directory (os error 2)"
  | .notDirectory => "Not a directory (os error 20)"
  | .isDirectory => "Is a directory (os error 21)"
  | .invalidArgument => "Invalid argument (os error 22)"
  | .nameTooLong => "File name too long (os error 36)"
  | .networkUnreachable => "Network is unreachable (os error 101)"
  | .timedOut => "Connection timed out (os error 110)"
  | .refused => "Connection refused (os error 111)"
  | .hostUnreachable => "No route to host (os error 113)"

/-- Why an operation on a file or a connection failed. -/
inductive IoFault where
  | system (f : SystemFault)
  | other (message : String)
  deriving DecidableEq, Repr

/-- The wording of a fault. -/
def IoFault.message : IoFault → String
  | .system f => f.message
  | .other m => m

/-- What can go wrong while exchanges are recorded. -/
inductive Error where
  /-- No receiver was given. -/
  | noReceiver
  /-- The transport failed. -/
  | transport (cause : String)
  /-- A body failed. -/
  | body (cause : String)
  /-- A file failed. -/
  | io (cause : IoFault)
  /-- A record could not be written as JSON. -/
  | json (cause : String)
  /-- There is no name for the next file. -/
  | fileName (message : String)
  /-- Going on to the next file failed. -/
  | rotate (cause : Error)
  /-- A middleware refused a record. -/
  | middleware (message : String)
  /-- The receiver is closed. -/
  | closed
  deriving DecidableEq, Repr

namespace Error

/-- The wording of an error. -/
def message : Error → String
  | .noReceiver => "no receiver configured"
  | .transport cause => "transport error: " ++ cause
  | .body cause => "body error: " ++ cause
  | .io cause => "io error: " ++ cause.message
  | .json cause => "failed to serialize JSON: " ++ cause
  | .fileName m => "failed to generate file name: " ++ m
  | .rotate cause => "failed to rotate HAR file: " ++ cause.message
  | .middleware m => m
  | .closed => "receiver is closed"

/-- The wordings of the causes behind an error, nearest first. -/
def causes : Error → List String
  | .transport cause => [cause]
  | .body cause => [cause]
  | .io cause => [cause.message]
  | .json cause => [cause]
  | .rotate cause => cause.message :: cause.causes
  | _ => []

end Error

end ExchangeArchive

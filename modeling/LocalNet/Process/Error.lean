import LocalNet.Process.Status

/-!
What can go wrong with a node's process.
-/

namespace LocalNet

inductive OsError where
  | notFound
  | permissionDenied
  | alreadyExists
  | notDirectory
  | isDirectory
  | nameTooLong
  | tooManyLinks
  | notExecutable
  deriving DecidableEq, Repr

def OsError.number : OsError → Nat
  | .notFound => 2
  | .permissionDenied => 13
  | .alreadyExists => 17
  | .notDirectory => 20
  | .isDirectory => 21
  | .nameTooLong => 36
  | .tooManyLinks => 40
  | .notExecutable => 8

def OsError.meaning : OsError → String
  | .notFound => "No such file or directory"
  | .permissionDenied => "Permission denied"
  | .alreadyExists => "File exists"
  | .notDirectory => "Not a directory"
  | .isDirectory => "Is a directory"
  | .nameTooLong => "File name too long"
  | .tooManyLinks => "Too many levels of symbolic links"
  | .notExecutable => "Exec format error"

def OsError.message (error : OsError) : String :=
  error.meaning ++ " (os error " ++ toString error.number ++ ")"

inductive IoFault where
  | refused (reason : OsError)
  /-- A path holds a zero byte, which no file name may. -/
  | zeroInPath
  /-- An argument of a command holds a zero byte. -/
  | zeroInArgument
  | other (reason : String)
  deriving DecidableEq, Repr

def IoFault.message : IoFault → String
  | .refused reason => reason.message
  | .zeroInPath => "file name contained an unexpected NUL byte"
  | .zeroInArgument => "nul byte found in provided data"
  | .other reason => reason

inductive ProcessError where
  | binaryNotFound (path : String)
  | invalidConfig (reason : String)
  | setup (reason : String)
  | spawn (reason : IoFault)
  | alreadyStarted
  | notStarted
  | exited (status : ExitStatus)
  | io (reason : IoFault)
  | other (reason : String)
  deriving DecidableEq, Repr

def ProcessError.message : ProcessError → String
  | .binaryNotFound path => "node binary not found: " ++ path
  | .invalidConfig reason => "invalid implementation-specific config: " ++ reason
  | .setup reason => "failed to prepare node files: " ++ reason
  | .spawn reason => "failed to spawn node process: " ++ reason.message
  | .alreadyStarted => "process already started"
  | .notStarted => "process not started"
  | .exited status => "process exited abnormally: " ++ status.text
  | .io reason => "process I/O error: " ++ reason.message
  | .other reason => reason

end LocalNet

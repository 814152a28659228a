/-
Failures of the surroundings: system calls that are refused, and streams that break.
-/
namespace TableStore

/-- the error numbers of system calls that occur here -/
inductive Errno where
  | noEntry | badHandle | alreadyExists | notDirectory | isDirectory | invalidArgument
  | brokenPipe | connectionReset | connectionRefused
  deriving DecidableEq

namespace Errno

def number : Errno → Nat
  | .noEntry => 2
  | .badHandle => 9
  | .alreadyExists => 17
  | .notDirectory => 20
  | .isDirectory => 21
  | .invalidArgument => 22
  | .brokenPipe => 32
  | .connectionReset => 104
  | .connectionRefused => 111

def text : Errno → String
  | .noEntry => "No such file or directory"
  | .badHandle => "Bad file descriptor"
  | .alreadyExists => "File exists"
  | .notDirectory => "Not a directory"
  | .isDirectory => "Is a directory"
  | .invalidArgument => "Invalid argument"
  | .brokenPipe => "Broken pipe"
  | .connectionReset => "Connection reset by peer"
  | .connectionRefused => "Connection refused"

end Errno

/-- kinds of failure; three of them say that the other side of a connection is gone -/
inductive FaultKind where
  | notFound | permissionDenied | alreadyExists | notDirectory | isDirectory | invalidInput | invalidData
  | unexpectedEnd | brokenPipe | timedOut
  | connectionReset | connectionRefused | connectionAborted | other
  deriving DecidableEq

namespace FaultKind

/-- the text of a failure that brings none of its own -/
def text : FaultKind → String
  | .notFound => "entity not found"
  | .permissionDenied => "permission denied"
  | .alreadyExists => "entity already exists"
  | .notDirectory => "not a directory"
  | .isDirectory => "is a directory"
  | .invalidInput => "invalid input parameter"
  | .invalidData => "invalid data"
  | .unexpectedEnd => "unexpected end of file"
  | .brokenPipe => "broken pipe"
  | .timedOut => "timed out"
  | .connectionReset => "connection reset"
  | .connectionRefused => "connection refused"
  | .connectionAborted => "connection aborted"
  | .other => "other error"

def isClosed : FaultKind → Bool
  | .unexpectedEnd | .connectionReset | .brokenPipe => true
  | _ => false

end FaultKind

def Errno.kind : Errno → FaultKind
  | .noEntry => .notFound
  | .badHandle => .other
  | .alreadyExists => .alreadyExists
  | .notDirectory => .notDirectory
  | .isDirectory => .isDirectory
  | .invalidArgument => .invalidInput
  | .brokenPipe => .brokenPipe
  | .connectionReset => .connectionReset
  | .connectionRefused => .connectionRefused

/-- a failure of the surroundings: a refused system call, or a kind with its own text or without one -/
inductive Fault where
  | system (errno : Errno)
  | plain (kind : FaultKind)
  | custom (kind : FaultKind) (text : String)
  deriving DecidableEq

namespace Fault

def kind : Fault → FaultKind
  | .system errno => errno.kind
  | .plain kind => kind
  | .custom kind _ => kind

def message : Fault → String
  | .system errno => errno.text ++ " (os error " ++ toString errno.number ++ ")"
  | .plain kind => kind.text
  | .custom _ text => text

/-- a stream ended inside what was to be read -/
def endOfStream : Fault := .custom .unexpectedEnd "failed to fill whole buffer"

/-- a line of input is not UTF-8 -/
def notText : Fault := .custom .invalidData "stream did not contain valid UTF-8"

/-- a file that is only read was to be saved -/
def readOnly : Fault := .custom .permissionDenied "file opened in read only mode"

/-- only regular files are copied -/
def notRegular : Fault :=
  .custom .invalidInput "the source path is neither a regular file nor a symlink to a regular file"

/-- no path holds a NUL character -/
def nulInPath : Fault := .custom .invalidInput "file name contained an unexpected NUL byte"

end Fault
end TableStore

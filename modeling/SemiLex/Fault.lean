/-!
# Faults and scan errors

A fault is what a stream or a file reports when it cannot serve bytes.  A scan error says in
which of the two situations a fault came up.
-/

namespace SemiLex

inductive FaultKind where
  | interrupted
  | brokenPipe
  | notFound
  | permissionDenied
  | unexpectedEof
  | timedOut
  | invalidData
  | wouldBlock
  | connectionReset
  | invalidInput
  | invalidFilename
  | isADirectory
  | notADirectory
  | writeZero
  | other
  deriving DecidableEq, Repr

def FaultKind.name : FaultKind → String
  | .interrupted => "Interrupted"
  | .brokenPipe => "BrokenPipe"
  | .notFound => "NotFound"
  | .permissionDenied => "PermissionDenied"
  | .unexpectedEof => "UnexpectedEof"
  | .timedOut => "TimedOut"
  | .invalidData => "InvalidData"
  | .wouldBlock => "WouldBlock"
  | .connectionReset => "ConnectionReset"
  | .invalidInput => "InvalidInput"
  | .invalidFilename => "InvalidFilename"
  | .isADirectory => "IsADirectory"
  | .notADirectory => "NotADirectory"
  | .writeZero => "WriteZero"
  | .other => "Other"

/-- Why bytes could not be served. -/
structure Fault where
  kind : FaultKind
  message : String
  deriving DecidableEq, Repr

inductive ScanError where
  | cannotOpen (path : String) (cause : Fault)
  | readFailed (cause : Fault)
  deriving DecidableEq, Repr

namespace ScanError

def cause : ScanError → Fault
  | cannotOpen _ cause => cause
  | readFailed cause => cause

def isOpenFailure : ScanError → Bool
  | cannotOpen .. => true
  | readFailed _ => false

def message : ScanError → String
  | cannotOpen path cause => "can't open " ++ path ++ ": " ++ cause.message
  | readFailed cause => "read failed: " ++ cause.message

end ScanError

end SemiLex

import Hostcall.Errno

/-!
# Failures of the host

An operation of the host fails with a numeric code of its operating system, or,
when the host's own library refuses it first, with a kind and an optional
message.  `HostError.errno?` is the part of those failures a guest may hear
about; the rest is for the embedder.

A code is classified by the code alone, a failure without one by its kind.
-/

namespace Hostcall

/-- The kind of a host failure that carries no code. -/
inductive FailureKind where
  | notFound
  | permissionDenied
  | connectionRefused
  | connectionReset
  | hostUnreachable
  | networkUnreachable
  | connectionAborted
  | notConnected
  | addrInUse
  | addrNotAvailable
  | networkDown
  | brokenPipe
  | alreadyExists
  | wouldBlock
  | notADirectory
  | isADirectory
  | directoryNotEmpty
  | readOnlyFilesystem
  | staleNetworkFileHandle
  | invalidInput
  | invalidData
  | timedOut
  | writeZero
  | storageFull
  | notSeekable
  | quotaExceeded
  | fileTooLarge
  | resourceBusy
  | executableFileBusy
  | deadlock
  | crossesDevices
  | tooManyLinks
  | invalidFilename
  | argumentListTooLong
  | interrupted
  | unsupported
  | unexpectedEof
  | outOfMemory
  | other
  deriving DecidableEq, Repr, Inhabited

namespace FailureKind

/-- Every kind with its name and the text shown when no message came with it. -/
def table : List (FailureKind × String × String) :=
  [(notFound, "NotFound", "entity not found"),
    (permissionDenied, "PermissionDenied", "permission denied"),
    (connectionRefused, "ConnectionRefused", "connection refused"),
    (connectionReset, "ConnectionReset", "connection reset"),
    (hostUnreachable, "HostUnreachable", "host unreachable"),
    (networkUnreachable, "NetworkUnreachable", "network unreachable"),
    (connectionAborted, "ConnectionAborted", "connection aborted"),
    (notConnected, "NotConnected", "not connected"),
    (addrInUse, "AddrInUse", "address in use"),
    (addrNotAvailable, "AddrNotAvailable", "address not available"),
    (networkDown, "NetworkDown", "network down"),
    (brokenPipe, "BrokenPipe", "broken pipe"),
    (alreadyExists, "AlreadyExists", "entity already exists"),
    (wouldBlock, "WouldBlock", "operation would block"),
    (notADirectory, "NotADirectory", "not a directory"),
    (isADirectory, "IsADirectory", "is a directory"),
    (directoryNotEmpty, "DirectoryNotEmpty", "directory not empty"),
    (readOnlyFilesystem, "ReadOnlyFilesystem", "read-only filesystem or storage medium"),
    (staleNetworkFileHandle, "StaleNetworkFileHandle", "stale network file handle"),
    (invalidInput, "InvalidInput", "invalid input parameter"),
    (invalidData, "InvalidData", "invalid data"),
    (timedOut, "TimedOut", "timed out"),
    (writeZero, "WriteZero", "write zero"),
    (storageFull, "StorageFull", "no storage space"),
    (notSeekable, "NotSeekable", "seek on unseekable file"),
    (quotaExceeded, "QuotaExceeded", "quota exceeded"),
    (fileTooLarge, "FileTooLarge", "file too large"),
    (resourceBusy, "ResourceBusy", "resource busy"),
    (executableFileBusy, "ExecutableFileBusy", "executable file busy"),
    (deadlock, "Deadlock", "deadlock"),
    (crossesDevices, "CrossesDevices", "cross-device link or rename"),
    (tooManyLinks, "TooManyLinks", "too many links"),
    (invalidFilename, "InvalidFilename", "invalid filename"),
    (argumentListTooLong, "ArgumentListTooLong", "argument list too long"),
    (interrupted, "Interrupted", "operation interrupted"),
    (unsupported, "Unsupported", "unsupported"),
    (unexpectedEof, "UnexpectedEof", "unexpected end of file"),
    (outOfMemory, "OutOfMemory", "out of memory"),
    (other, "Other", "other error")]

/-- The kind of a given name. -/
def ofName? (s : String) : Option FailureKind :=
  (table.find? fun row => row.2.1 == s).map (·.1)

/-- The text of a failure of this kind that came without a message. -/
def text (k : FailureKind) : String :=
  ((table.find? fun row => row.1 == k).map (·.2.2)).getD ""

/-- The error number a guest hears for a failure of this kind.  A refused
permission means that a path led out of its sandbox. -/
def errno? : FailureKind → Option Errno
  | notFound => some .noSuchFileOrDirectory
  | permissionDenied => some .notCapable
  | alreadyExists => some .alreadyExists
  | invalidInput => some .invalidArgument
  | unsupported => some .notSupported
  | wouldBlock => some .again
  | interrupted => some .intr
  | _ => none

end FailureKind

/-- A failure of a host operation. -/
inductive HostError where
  /-- A numeric code of the operating system. -/
  | code (n : Int)
  /-- A refusal without a code. -/
  | kind (k : FailureKind) (message : Option String)
  deriving DecidableEq, Repr, Inhabited

namespace HostError

/-! ## Codes of the operating system -/

def notPermitted : HostError := .code 1
def noEntry : HostError := .code 2
def noDevice : HostError := .code 6
def badDescriptor : HostError := .code 9
def tryAgain : HostError := .code 11
def busy : HostError := .code 16
def fileExists : HostError := .code 17
def crossDevice : HostError := .code 18
def notADirectory : HostError := .code 20
def isADirectory : HostError := .code 21
def invalid : HostError := .code 22
def tooLarge : HostError := .code 27
def noSpaceLeft : HostError := .code 28
def illegalSeek : HostError := .code 29
def brokenPipe : HostError := .code 32
def nameTooLong : HostError := .code 36
def directoryNotEmpty : HostError := .code 39
def symlinkLoop : HostError := .code 40

/-- The codes a guest hears about, each with its error number. -/
def codes : List (Int × Errno) :=
  [(2, .noSuchFileOrDirectory), (9, .badFileDescriptor), (13, .permissionDenied),
    (1, .permissionDenied), (30, .permissionDenied), (20, .notDirectory), (21, .isDirectory),
    (27, .fileTooLarge), (22, .invalidArgument), (28, .noSpace), (122, .noSpace),
    (17, .alreadyExists), (39, .notEmpty), (40, .loop), (36, .nameTooLong),
    (84, .illegalByteSequence),
    (95, .notSupported), (29, .seekPipe), (75, .overflow), (24, .tooManyOpenFiles),
    (23, .tooManyOpenFiles), (18, .notCapable), (11, .again), (4, .intr), (16, .busy), (26, .busy),
    (5, .io)]

/-- The error number a guest hears for this failure, if it hears of it at all. -/
def errno? : HostError → Option Errno
  | .code n => codes.lookup n
  | .kind k _ => k.errno?

/-- The failure's own text.  A system puts words of its own in front of the number
of a code; they are left out, and so are the brackets around the number. -/
def text : HostError → String
  | .code n => "os error " ++ toString n
  | .kind k message => message.getD k.text

end HostError

end Hostcall

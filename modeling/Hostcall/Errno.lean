/-!
# Error numbers

The recoverable conditions a host call can report to its guest.  Each has a
numeric code in snapshot preview 1, a short name under which it is raised, a
name, and one line of text that starts with that name.

* `Errno.code` gives the number the guest sees;
* `Errno.name` and `Errno.description` give the two halves of `Errno.text`;
* `Errno.ofName?` and `Errno.ofShortName?` read the two names back.
-/

namespace Hostcall

/-- A recoverable error condition. -/
inductive Errno where
  | noSuchFileOrDirectory
  | badFileDescriptor
  | notCapable
  | permissionDenied
  | notDirectory
  | isDirectory
  | fileTooLarge
  | invalidArgument
  | noSpace
  | alreadyExists
  | notEmpty
  | loop
  | nameTooLong
  | illegalByteSequence
  | notSupported
  | seekPipe
  | overflow
  | tooManyOpenFiles
  | again
  | intr
  | busy
  | io
  deriving DecidableEq, Repr, Inhabited

namespace Errno

/-- Every error number, each once. -/
def all : List Errno :=
  [noSuchFileOrDirectory, badFileDescriptor, notCapable, permissionDenied, notDirectory,
    isDirectory, fileTooLarge, invalidArgument, noSpace, alreadyExists, notEmpty, loop,
    nameTooLong, illegalByteSequence, notSupported, seekPipe, overflow, tooManyOpenFiles, again,
    intr, busy, io]

/-- The numeric code of snapshot preview 1. -/
def code : Errno → UInt16
  | permissionDenied => 2
  | again => 6
  | badFileDescriptor => 8
  | busy => 10
  | alreadyExists => 20
  | fileTooLarge => 22
  | illegalByteSequence => 25
  | intr => 27
  | invalidArgument => 28
  | io => 29
  | isDirectory => 31
  | loop => 32
  | tooManyOpenFiles => 33
  | nameTooLong => 37
  | noSuchFileOrDirectory => 44
  | noSpace => 51
  | notDirectory => 54
  | notEmpty => 55
  | notSupported => 58
  | overflow => 61
  | seekPipe => 70
  | notCapable => 76

/-- The name of the condition, in one word. -/
def name : Errno → String
  | noSuchFileOrDirectory => "NoSuchFileOrDirectory"
  | badFileDescriptor => "BadFileDescriptor"
  | notCapable => "NotCapable"
  | permissionDenied => "PermissionDenied"
  | notDirectory => "NotDirectory"
  | isDirectory => "IsDirectory"
  | fileTooLarge => "FileTooLarge"
  | invalidArgument => "InvalidArgument"
  | noSpace => "NoSpace"
  | alreadyExists => "Exists"
  | notEmpty => "NotEmpty"
  | loop => "Loop"
  | nameTooLong => "NameTooLong"
  | illegalByteSequence => "IllegalByteSequence"
  | notSupported => "NotSupported"
  | seekPipe => "SeekPipe"
  | overflow => "Overflow"
  | tooManyOpenFiles => "TooManyOpenFiles"
  | again => "Again"
  | intr => "Intr"
  | busy => "Busy"
  | io => "Io"

/-- What the condition means, for a reader. -/
def description : Errno → String
  | noSuchFileOrDirectory => "no such file or directory"
  | badFileDescriptor => "bad file descriptor"
  | notCapable => "capabilities insufficient"
  | permissionDenied => "permission denied"
  | notDirectory => "not a directory"
  | isDirectory => "is a directory"
  | fileTooLarge => "file too large"
  | invalidArgument => "invalid argument"
  | noSpace => "no space left on device"
  | alreadyExists => "file exists"
  | notEmpty => "directory not empty"
  | loop => "too many levels of symbolic links"
  | nameTooLong => "filename too long"
  | illegalByteSequence => "illegal byte sequence"
  | notSupported => "not supported"
  | seekPipe => "invalid seek"
  | overflow => "value too large to be stored in data type"
  | tooManyOpenFiles => "too many open files"
  | again => "resource unavailable, try again"
  | intr => "interrupted function"
  | busy => "device or resource busy"
  | io => "I/O error"

/-- The line shown for an error that carries no context. -/
def text (e : Errno) : String := e.name ++ ": " ++ e.description

/-- The error number of a given name. -/
def ofName? (s : String) : Option Errno := all.find? fun e => e.name == s

/-- The short name of the condition. -/
def shortName : Errno → String
  | noSuchFileOrDirectory => "not_found"
  | badFileDescriptor => "badf"
  | notCapable => "not_capable"
  | permissionDenied => "perm"
  | notDirectory => "not_dir"
  | isDirectory => "is_dir"
  | fileTooLarge => "too_big"
  | invalidArgument => "invalid_argument"
  | noSpace => "no_space"
  | alreadyExists => "exist"
  | notEmpty => "not_empty"
  | loop => "loop_"
  | nameTooLong => "name_too_long"
  | illegalByteSequence => "illegal_byte_sequence"
  | notSupported => "not_supported"
  | seekPipe => "seek_pipe"
  | overflow => "overflow"
  | tooManyOpenFiles => "too_many_open_files"
  | again => "again"
  | intr => "interrupted"
  | busy => "busy"
  | io => "io"

/-- The error number of a given short name. -/
def ofShortName? (s : String) : Option Errno := all.find? fun e => e.shortName == s

/-- No two conditions share a name or a short name, and nothing else is read as one. -/
theorem names_read_back (e : Errno) (s : String) :
    (ofName? s = some e ↔ e.name = s) ∧ (ofShortName? s = some e ↔ e.shortName = s) := by
  have hown : ofName? e.name = some e ∧ ofShortName? e.shortName = some e := by
    cases e <;> decide
  refine ⟨⟨fun h => ?_, ?_⟩, ⟨fun h => ?_, ?_⟩⟩
  · have hfound := List.find?_some h
    exact eq_of_beq hfound
  · rintro rfl
    exact hown.1
  · have hfound := List.find?_some h
    exact eq_of_beq hfound
  · rintro rfl
    exact hown.2

end Errno

end Hostcall

import Hostcall.HostError

/-!
# Faults

A call fails with a fault.  It has one cause and a stack of contexts, the
outermost first.  A fault whose cause is an error number is an answer for the
guest; every other fault is a trap, which ends the instance.

* `Report` is a cause under contexts, with its readings: `message`, `chain`,
  `alternate`, `debug`;
* `Fault` is a report raised by a call, read through `errno?` and `isTrap`;
* `Fault.ofHost` classifies a failure of the host.
-/

namespace Hostcall

/-- A guest's request to end, with the status it gave. -/
structure Exit where
  status : Int32
  deriving DecidableEq, Repr, Inhabited

/-- The line shown for a guest that ended on its own request. -/
def Exit.text (e : Exit) : String := "Exited with i32 exit status " ++ toString e.status

/-- What the host's operating system keeps of a status. -/
def Exit.lowByte (e : Exit) : UInt8 := e.status.toUInt32.toUInt8

/-- What went wrong in the first place. -/
inductive Cause where
  /-- A condition the guest may hear about. -/
  | errno (e : Errno)
  /-- A text of the embedder or of this library. -/
  | text (s : String)
  /-- A failure of the host that no error number stands for. -/
  | host (e : HostError)
  /-- A guest's own request to end. -/
  | exit (e : Exit)
  /-- A device gave way in the middle of an operation and unwound the call. -/
  | crash
  deriving DecidableEq, Repr, Inhabited

/-- The line shown for a cause that carries no context. -/
def Cause.message : Cause → String
  | .errno e => e.text
  | .text s => s
  | .host e => e.text
  | .exit e => e.text
  | .crash => "crash"

/-- A cause under contexts, the outermost context first. -/
structure Report where
  contexts : List String
  cause : Cause
  deriving DecidableEq, Repr, Inhabited

namespace Report

/-- A report without contexts. -/
def ofCause (c : Cause) : Report := ⟨[], c⟩

/-- Adds an outermost context. -/
def context (r : Report) (s : String) : Report := { r with contexts := s :: r.contexts }

/-- The texts of a report, outermost first, the cause's own text last. -/
def chain (r : Report) : List String := r.contexts ++ [r.cause.message]

/-- The outermost text. -/
def message (r : Report) : String := r.contexts.headD r.cause.message

/-- The text below the outermost one. -/
def source? (r : Report) : Option String := r.chain[1]?

/-- The whole chain on one line. -/
def alternate (r : Report) : String := ": ".intercalate r.chain

/-- Indents the lines of a cause's text.  With a number the first line carries
it and the later ones line up behind it. -/
def indented (number : Option Nat) (s : String) : String :=
  match number with
  | none => "    " ++ "\n    ".intercalate (s.splitOn "\n")
  | some n =>
    let digits := toString n
    let pad := String.ofList (List.replicate (5 - digits.length) ' ')
    pad ++ digits ++ ": " ++ "\n       ".intercalate (s.splitOn "\n")

/-- The many-line reading: the outermost text, then every text below it,
numbered where there are two or more. -/
def debug (r : Report) : String :=
  match r.chain with
  | [] => ""
  | [only] => only
  | [outer, cause] => outer ++ "\n\nCaused by:\n" ++ indented none cause
  | outer :: causes =>
    outer ++ "\n\nCaused by:\n" ++
      "\n".intercalate (causes.mapIdx fun i s => indented (some i) s)

/-- The error number a report carries. -/
def errno? (r : Report) : Option Errno :=
  match r.cause with
  | .errno e => some e
  | _ => none

/-- The request to end a report carries. -/
def exit? (r : Report) : Option Exit :=
  match r.cause with
  | .exit e => some e
  | _ => none

end Report

/-- The failure of a call. -/
structure Fault where
  report : Report
  deriving DecidableEq, Repr, Inhabited

namespace Fault

/-- A fault for the guest. -/
def ofErrno (e : Errno) : Fault := ⟨.ofCause (.errno e)⟩

/-- A fault for the guest under one context. -/
def because (e : Errno) (s : String) : Fault := ⟨⟨[s], .errno e⟩⟩

/-- Raises a report as an unrecoverable condition. -/
def trap (r : Report) : Fault := ⟨r⟩

/-- A trap with one text. -/
def trapText (s : String) : Fault := trap (.ofCause (.text s))

/-- The fault of a call that a device unwound. -/
def crash : Fault := ⟨.ofCause .crash⟩

/-- Adds an outermost context. -/
def context (f : Fault) (s : String) : Fault := ⟨f.report.context s⟩

/-- The outermost text. -/
def message (f : Fault) : String := f.report.message

/-- The error number the guest is told, none for a trap. -/
def errno? (f : Fault) : Option Errno := f.report.errno?

/-- A fault the guest is not told about ends the instance. -/
def isTrap (f : Fault) : Bool := f.errno?.isNone

/-- Splits a fault into the guest's error number or the embedder's report. -/
def downcast (f : Fault) : Errno ⊕ Report :=
  match f.errno? with
  | some e => .inl e
  | none => .inr f.report

/-- Classifies a failure of the host.  What no error number stands for becomes
a trap that keeps the failure as its cause. -/
def ofHost (e : HostError) : Fault :=
  match e.errno? with
  | some errno => ofErrno errno
  | none =>
    match e with
    | .code _ => trap ⟨["unknown host os error"], .host e⟩
    | .kind _ _ => trap ⟨["unknown host io error"], .host e⟩

/-- A value that does not fit the width it must be told in. -/
def overflow : Fault := ofErrno .overflow

/-- Bytes that are the UTF-8 form of no text. -/
def notText : Fault := ofErrno .illegalByteSequence

end Fault

/-- An answer of a call that changes nothing when it fails. -/
abbrev Outcome (α : Type) := Except Fault α

/-- A count told in 32 bits. -/
def countOf (n : Nat) : Outcome UInt32 :=
  if n < UInt32.size then .ok (UInt32.ofNat n) else .error .overflow

/-- A quantity told in 64 bits. -/
def wordOf (n : Nat) : Outcome UInt64 :=
  if n < UInt64.size then .ok (UInt64.ofNat n) else .error .overflow

/-- The host's exit status for a finished run: zero for a normal return, the
guest's own status for a request to end, and that of an abort for a trap. -/
def exitStatus : Except Report Unit → Int32
  | .ok () => 0
  | .error r =>
    match r.exit? with
    | some e => e.status
    | none => 134

end Hostcall

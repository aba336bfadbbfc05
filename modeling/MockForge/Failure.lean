import MockForge.Fault

/-!
# Failures

A failure is a fault with what was being done when it happened, told from the outside inward. Its
exit code depends on what its links are and not on their wording.
-/

namespace MockForge

/-- How a command ends. -/
inductive ExitCode where
  | success
  | error
  | invalidInput
  | generationError
  deriving DecidableEq, Repr, Inhabited

namespace ExitCode

/-- How a command ends when nothing is said. -/
def standard : ExitCode := .success

/-- The number of an exit code. -/
def number : ExitCode → Nat
  | .success => 0
  | .error => 1
  | .invalidInput => 2
  | .generationError => 3

end ExitCode

/-- A link of a failure. -/
inductive Link where
  | text (message : String)
  | fault (cause : Fault)
  | write (cause : WriteFault)
  deriving DecidableEq, Repr

namespace Link

/-- The wording of a link. -/
def message : Link → String
  | .text message => message
  | .fault cause => cause.message
  | .write cause => cause.message

/-- The wording of what caused a link. -/
def source? : Link → Option String
  | .text _ => none
  | .fault cause => cause.source?
  | .write cause => cause.source?

/-- Whether a link is a fault of writing. -/
def isWrite : Link → Bool
  | .write _ => true
  | _ => false

/-- The fault that a link is. -/
def fault? : Link → Option Fault
  | .fault cause => some cause
  | _ => none

end Link

/-- Why a command fails: its contexts, from the outermost inward, and the cause inside them. -/
structure Failure where
  contexts : List Link := []
  cause : Link
  deriving DecidableEq, Repr

namespace Failure

/-- All links from the outermost inward. -/
def links (failure : Failure) : List Link := failure.contexts ++ [failure.cause]

/-- The failure inside one more context. -/
def within (failure : Failure) (context : Link) : Failure :=
  { failure with contexts := context :: failure.contexts }

/-- The outermost link in words. -/
def message (failure : Failure) : String := (failure.contexts.headD failure.cause).message

/-- All links in words, and what caused the cause. -/
def report (failure : Failure) : String :=
  ": ".intercalate (failure.links.map Link.message ++ failure.cause.source?.toList)

/-- The exit code of a failure. A fault of writing decides wherever it stands, and after that the
outermost other fault. -/
def exitCode (failure : Failure) : ExitCode :=
  if failure.links.any Link.isWrite then .generationError
  else
    match failure.links.findSome? Link.fault? with
    | some fault => if fault.isPlugin then .generationError else .invalidInput
    | none => .error

end Failure

end MockForge

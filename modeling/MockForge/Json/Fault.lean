import MockForge.Misfit

/-!
# What can be wrong with a JSON document

A document is malformed, ends too early, or is well formed and does not fit what is read from it.
-/

namespace MockForge.Json

/-- Why a document cannot be read. -/
inductive Fault where
  | malformed
  | endOfText
  | misfit (cause : Misfit)
  deriving DecidableEq, Repr

/-- The wording of a fault. -/
def Fault.message : Fault → String
  | .malformed => "malformed document"
  | .endOfText => "unexpected end of document"
  | .misfit cause => cause.message

end MockForge.Json

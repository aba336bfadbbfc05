import MockForge.Fault
import MockForge.Run
import MockForge.Signature

/-!
# Return values

What a stub does at its end, after all that plugins contribute.
-/

namespace MockForge

/-- Gives the end of the stub of a function, given the unit of indentation. -/
structure ReturnHandler where
  render : Signature → String → Run Fault String

namespace ReturnHandler

/-- The end of a stub that returns a value of zeros, or nothing. -/
def zeroedText (function : Signature) (indent : String) : String :=
  if function.returnsVoid then ""
  else
    indent ++ function.returnType ++ " cmock_retval = {0};\n" ++ indent
      ++ "return cmock_retval;\n"

/-- Returns a value of zeros. -/
def zeroed : ReturnHandler := ⟨fun function indent => pure (zeroedText function indent)⟩

/-- A handler that answers as told and puts every question on record. -/
def scripted (answer : Signature → String → Except Fault String) : ReturnHandler where
  render function indent := do
    Run.call (.returns function.name indent)
    Run.ofOutcome (answer function indent)

end ReturnHandler

end MockForge

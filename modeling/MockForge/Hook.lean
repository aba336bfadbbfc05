/-!
# Hooks

The places of a mock to which plugins contribute for each function.
-/

namespace MockForge

/-- A place to which plugins contribute for a function. -/
inductive Hook where
  /-- Fields of the structure that holds the state of the mock. -/
  | instanceStructure
  /-- Declarations in the header. -/
  | declarations
  /-- Statements that check the mock after a test. -/
  | verify
  /-- Statements that clean up after a test. -/
  | destroy
  /-- Statements at the start of the stub. -/
  | stubStart
  /-- Statements in the stub. -/
  | stub
  deriving DecidableEq, Repr

/-- What a hook is called in reports. -/
def Hook.name : Hook → String
  | .instanceStructure => "instance_structure"
  | .declarations => "mock_function_declarations"
  | .verify => "mock_verify"
  | .destroy => "mock_destroy"
  | .stubStart => "mock_implementation_prefix"
  | .stub => "mock_implementation"

end MockForge

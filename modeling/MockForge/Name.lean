/-!
# Names

The name of a module and the name of its mock, and the files that go by them.
-/

namespace MockForge

/-- The name of a module: what its header is called, without the extension. -/
structure ModuleName where
  text : String
  deriving DecidableEq, Repr

/-- The header of a module. -/
def ModuleName.headerFile (name : ModuleName) : String := name.text ++ ".h"

/-- The name of a mock, from which all its symbols are made. -/
structure MockName where
  text : String
  deriving DecidableEq, Repr

namespace MockName

/-- The name of the mock of a module. -/
def derive (symbolPrefix : String) (module : ModuleName) : MockName :=
  ⟨symbolPrefix ++ module.text⟩

/-- The header of a mock. -/
def headerFile (name : MockName) : String := name.text ++ ".h"

/-- The source of a mock. -/
def sourceFile (name : MockName) : String := name.text ++ ".c"

end MockName

end MockForge

import MockForge.FileSystem.Fault
import MockForge.Json.Fault
import MockForge.Toml.Fault

/-!
# Why a mock cannot be made or written

Faults of the input, of its documents and of the plugins on one side, faults of writing on the
other. Each has a wording, and some are caused by another fault that has a wording of its own.
-/

namespace MockForge

/-- Why a configuration is refused: for a stated reason, or because of its document. -/
inductive ConfigurationFault where
  | stated (message : String)
  | document (cause : Toml.Fault)
  deriving DecidableEq, Repr

/-- The wording of a refused configuration. -/
def ConfigurationFault.message : ConfigurationFault → String
  | .stated message => message
  | .document cause => "failed to parse configuration: " ++ cause.message

/-- Why a mock cannot be made. -/
inductive Fault where
  | configuration (cause : ConfigurationFault)
  | argument (message : String)
  | validation (field reason : String)
  | plugin (name hook message : String)
  | serialization (message : String) (cause : Option Json.Fault)
  | file (path : String) (cause : FileFault)
  deriving DecidableEq, Repr

namespace Fault

/-- The wording of a fault. -/
def message : Fault → String
  | .configuration cause => "Configuration error: " ++ cause.message
  | .argument message => "Invalid argument: " ++ message
  | .validation field reason => "Validation error in " ++ field ++ ": " ++ reason
  | .plugin name hook message =>
      "Plugin '" ++ name ++ "' failed in hook '" ++ hook ++ "': " ++ message
  | .serialization message _ => "Serialization error: " ++ message
  | .file path cause => "I/O error on " ++ path ++ ": " ++ cause.message

/-- The wording of the fault that caused this one. -/
def source? : Fault → Option String
  | .serialization _ cause => cause.map Json.Fault.message
  | .file _ cause => some cause.message
  | _ => none

/-- Whether a plugin failed. -/
def isPlugin : Fault → Bool
  | .plugin .. => true
  | _ => false

/-- Whether the configuration is refused. -/
def isConfiguration : Fault → Bool
  | .configuration _ => true
  | _ => false

/-- Whether a value is out of its bounds. -/
def isValidation : Fault → Bool
  | .validation .. => true
  | _ => false

/-- Whether a document is refused. -/
def isSerialization : Fault → Bool
  | .serialization .. => true
  | _ => false

end Fault

/-- Why a mock cannot be written. -/
inductive WriteFault where
  | invalidPath (path : String)
  | invalidComponent (path : String)
  | duplicatePath (path : String)
  | file (path : String) (cause : FileFault)
  deriving DecidableEq, Repr

namespace WriteFault

/-- The wording of a fault. -/
def message : WriteFault → String
  | .invalidPath path => "Invalid path: " ++ path
  | .invalidComponent path => "Path contains invalid components: " ++ path
  | .duplicatePath path => "Duplicate file path: " ++ path
  | .file path cause => "I/O error on " ++ path ++ ": " ++ cause.message

/-- The wording of the fault that caused this one. -/
def source? : WriteFault → Option String
  | .file _ cause => some cause.message
  | _ => none

/-- Whether a path was refused for what it is. -/
def isInvalidPath : WriteFault → Bool
  | .invalidPath _ | .invalidComponent _ => true
  | _ => false

/-- Whether an access to a file failed. -/
def isFile : WriteFault → Bool
  | .file .. => true
  | _ => false

end WriteFault

end MockForge

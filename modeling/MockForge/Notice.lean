/-!
# Notices

What the program tells about its work while it goes on. Each notice has a level and comes from a
part of the program that filters can name.
-/

namespace MockForge

/-- How much a notice matters, from the most to the least. -/
inductive Level where
  | error
  | warning
  | info
  | debug
  | trace
  deriving DecidableEq, Repr

namespace Level

/-- The place of a level among the levels; more detail is greater. -/
def detail : Level → Nat
  | .error => 1
  | .warning => 2
  | .info => 3
  | .debug => 4
  | .trace => 5

/-- What a level is called. -/
def name : Level → String
  | .error => "ERROR"
  | .warning => "WARN"
  | .info => "INFO"
  | .debug => "DEBUG"
  | .trace => "TRACE"

end Level

/-- Something that is told. -/
inductive Notice where
  | settingsSought (path : String)
  | settingsRead (path : String)
  | settingsResolved (path : Option String)
  | descriptorsRead (path : String)
  | declaredTwice (name path : String)
  | contextResolved (module mock : String)
  | pluginRegistered (name : String)
  | pluginFailed (name hook message : String)
  | generating (mock : String) (functions : Nat)
  | generated (mock : String) (files : Nat)
  | staged (path : String)
  | backedUp (path : String)
  | wrote (files : Nat) (mock base : String)
  | mockMade (mock : String) (functions : Nat)
  deriving DecidableEq, Repr

namespace Notice

/-- The level of a notice. -/
def level : Notice → Level
  | .declaredTwice .. | .pluginFailed .. => .warning
  | .settingsResolved _ | .generating .. | .generated .. | .wrote .. | .mockMade .. => .info
  | .settingsSought _ | .settingsRead _ | .descriptorsRead _ | .contextResolved .. |
      .pluginRegistered _ | .staged _ | .backedUp _ => .debug

/-- The part of the program that a notice comes from. -/
def origin : Notice → String
  | .settingsSought _ => "cmockgen_cli::commands::common"
  | .settingsRead _ => "cmockgen_core::config"
  | .settingsResolved _ => "cmockgen_cli::commands::config"
  | .descriptorsRead _ => "cmockgen_core::function"
  | .declaredTwice .. | .mockMade .. => "cmockgen_cli::commands::generate"
  | .contextResolved .. => "cmockgen_codegen::context"
  | .pluginRegistered _ | .pluginFailed .. => "cmockgen_codegen::plugin"
  | .generating .. | .generated .. => "cmockgen_codegen::generator"
  | .staged _ | .backedUp _ | .wrote .. => "cmockgen_files::writer"

/-- The wording of a notice. -/
def message : Notice → String
  | .settingsSought path => "Loading configuration from " ++ path
  | .settingsRead path => "Loaded configuration from " ++ path
  | .settingsResolved path => "Resolved configuration from " ++ path.getD "defaults"
  | .descriptorsRead path => "Read function descriptors from " ++ path
  | .declaredTwice name path =>
      "Function '" ++ name ++ "' is declared more than once in " ++ path
  | .contextResolved .. => "Resolved generation context"
  | .pluginRegistered name => "Registered plugin '" ++ name ++ "'"
  | .pluginFailed name hook message =>
      "Plugin '" ++ name ++ "' failed in hook '" ++ hook ++ "': " ++ message
  | .generating mock functions =>
      "Generating " ++ mock ++ " for " ++ toString functions ++ " function(s)"
  | .generated mock files => "Generated " ++ mock ++ " (" ++ toString files ++ " files)"
  | .staged path => "Staged " ++ path
  | .backedUp path => "Backed up " ++ path
  | .wrote files mock base =>
      "Wrote " ++ toString files ++ " file(s) for " ++ mock ++ " to " ++ base
  | .mockMade mock functions =>
      "Generated " ++ mock ++ " for " ++ toString functions ++ " function(s)"

/-- The named values that go with a notice. -/
def fields : Notice → List (String × String)
  | .contextResolved module mock => [("module", module), ("mock", mock)]
  | _ => []

/-- The wording of a notice followed by its named values. -/
def text (notice : Notice) : String :=
  notice.message ++ String.join (notice.fields.map fun (name, value) =>
    " " ++ name ++ "=" ++ value)

end Notice

end MockForge

import MockForge.Failure
import MockForge.FileSystem.Task
import MockForge.Generator
import MockForge.Header
import MockForge.Report
import MockForge.Writer

/-!
# Commands

Generating a mock, and showing the settings. A command reads all its input before it writes
anything, and a failure says at which stage it happened.
-/

namespace MockForge

/-- A task that may fail. -/
abbrev Job (ε α : Type) : Type := ExceptT ε Task α

namespace Job

variable {ε ε' α : Type}

/-- Tells something. -/
def note (notice : Notice) : Job ε Unit := ExceptT.lift (Task.note notice)

/-- A run as a job: what it tells is told. -/
def ofRun (run : Run ε α) : Job ε α :=
  ExceptT.mk fun start =>
    { value := run.outcome, files := start, operations := [], notices := run.notices }

/-- A job whose fault is told inside a context. -/
def inContext (context : String) (wrap : ε → Link) (job : Job ε α) : Job Failure α :=
  ExceptT.mk do
    match ← job.run with
    | .ok a => return .ok a
    | .error fault => return .error { contexts := [.text context], cause := wrap fault }

end Job

/-! ## Reading the input -/

/-- The text of a file. -/
def readFile (path : Path) : Job Fault String := do
  match (← Task.look).readText path with
  | .ok text => return text
  | .error fault => throw (.file path.spelling fault)

/-- The settings in a file. -/
def Settings.ofFile (path : Path) : Job Fault Settings := do
  let text ← readFile path
  Job.note (.settingsRead path.spelling)
  ExceptT.mk (pure (Settings.ofToml text))

/-- The header that a file describes. -/
def Header.ofFile (path : Path) : Job Fault Header := do
  let text ← readFile path
  Job.note (.descriptorsRead path.spelling)
  ExceptT.mk (pure (Header.ofJson text))

namespace Command

/-- The settings in a file, or the standard ones when there is none. They are always valid. -/
def loadSettings (path : Option Path) : Job Failure Settings := do
  let settings ← match path with
    | some path => do
        Job.note (.settingsSought path.spelling)
        Job.inContext ("failed to load configuration from " ++ path.spelling) .fault
          (Settings.ofFile path)
    | none => pure {}
  Job.inContext "invalid configuration" .fault (ExceptT.mk (pure settings.validated))

/-! ## What is printed -/

/-- The text that a command prints to its two outputs. -/
structure Printed where
  out : String := ""
  err : String := ""
  deriving DecidableEq, Repr

/-- The exit code for what became of a command. -/
def exitCode : Except Failure Printed → ExitCode
  | .ok _ => .success
  | .error failure => failure.exitCode

/-- A text as a line. -/
def line (text : String) : String := text ++ "\n"

/-- The files of a mock, each after a line with its path. -/
def preview (mock : Mock) : String :=
  String.join (mock.files.map fun file => line ("// ---- " ++ file.path ++ " ----") ++ file.content)

/-! ## Commands -/

/-- What is asked of a generation. -/
structure Request where
  descriptors : Path
  module : String
  settings : Option Path := none
  /-- Where the mock goes instead of where the settings say. -/
  outputDirectory : Option Path := none
  /-- Whether the files are shown instead of written. -/
  dryRun : Bool := false
  deriving DecidableEq, Repr

/-- How reports are printed. -/
structure Manner where
  format : OutputFormat := .standard
  colored : Bool := false
  deriving DecidableEq, Repr

/-- All that a generation has read and made before it writes anything. -/
structure Plan where
  settings : Settings
  header : Header
  mock : Mock

/-- The settings with another directory for the mock, if there is one. -/
def Request.redirect (request : Request) (settings : Settings) : Settings :=
  match request.outputDirectory with
  | some directory => { settings with mockPath := directory }
  | none => settings

/-- Reads all input of a generation and makes its mock. -/
def prepare (request : Request) : Job Failure Plan := do
  if Text.isBlank request.module then
    throw { cause := .fault (.argument "module name cannot be empty") }
  let settings ← loadSettings request.settings
  let settings := request.redirect settings
  let header ← Job.inContext ("failed to read descriptors from " ++ request.descriptors.spelling)
    .fault (Header.ofFile request.descriptors)
  header.duplicates.forM fun name =>
    Job.note (.declaredTwice name request.descriptors.spelling)
  let context ← Job.inContext "failed to resolve generation context" .fault
    (Job.ofRun (Context.resolve settings.source ⟨request.module⟩))
  let mock ← Job.inContext "mock generation failed" .fault
    (Job.ofRun (Generator.generate { context } header.functions))
  return { settings, header, mock }

/-- Writes the files of a mock below a directory, or leaves them unwritten; gives what they are
called. -/
def deliver (host : Host) (dryRun : Bool) (base : Path) (mock : Mock) :
    Job Failure (List String) :=
  if dryRun then pure (mock.files.map MockFile.path)
  else do
    let paths ← Job.inContext "failed to write generated mock" .write
      (ExceptT.mk (Writer.write ⟨base, host⟩ mock))
    return paths.map Path.spelling

/-- The report of a generation. -/
def Plan.report (plan : Plan) (request : Request) (files : List String) : Report.Generation :=
  { module := request.module
    mockName := plan.mock.name.text
    functionCount := plan.header.functions.length
    outputDirectory := plan.settings.mockPath.spelling
    files
    dryRun := request.dryRun }

/-- What a generation prints: its report, and in front of it the files that it did not write. -/
def Plan.printed (plan : Plan) (request : Request) (manner : Manner) (files : List String) :
    Printed :=
  let text := line (Report.print manner.format manner.colored (plan.report request files).toJson)
  if request.dryRun then { out := preview plan.mock, err := text } else { out := text }

/-- Generates the mock of a module. -/
def generate (host : Host) (request : Request) (manner : Manner) : Job Failure Printed := do
  let plan ← prepare request
  let files ← deliver host request.dryRun plan.settings.mockPath plan.mock
  Job.note (.mockMade plan.mock.name.text plan.header.functions.length)
  return plan.printed request manner files

/-- Shows the settings that a generation would use. -/
def showSettings (path : Option Path) (manner : Manner) : Job Failure Printed := do
  let settings ← loadSettings path
  Job.note (.settingsResolved (path.map Path.spelling))
  return { out := line (Report.print manner.format manner.colored settings.toJson) }

end Command

end MockForge

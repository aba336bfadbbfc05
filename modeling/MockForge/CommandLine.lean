import MockForge.Command
import MockForge.Notice.Filter

/-!
# The command line

A command line names a command and gives it options and arguments. It is read from left to right,
and the first argument that makes no sense, or that asks for the version, ends the reading.
-/

namespace MockForge.CommandLine

/-! ## What can be given -/

/-- Where on the command line an argument stands: before the command, or behind one. -/
inductive Scope where
  | top
  | generate
  | config
  deriving DecidableEq, Repr

/-- The command of a name. -/
def Scope.ofName? (name : String) : Option Scope :=
  if name = "generate" then some .generate
  else if name = "config" then some .config
  else none

/-- An option. -/
inductive Switch where
  | verbose
  | format
  | module
  | settings
  | outputDirectory
  | dryRun
  | help
  | version
  deriving DecidableEq, Repr

namespace Switch

/-- All options. -/
def all : List Switch :=
  [.verbose, .format, .module, .settings, .outputDirectory, .dryRun, .help, .version]

/-- The long name of an option. -/
def long : Switch → String
  | .verbose => "verbose"
  | .format => "format"
  | .module => "module"
  | .settings => "config"
  | .outputDirectory => "output-dir"
  | .dryRun => "dry-run"
  | .help => "help"
  | .version => "version"

/-- The letter of an option, if it has one. -/
def short? : Switch → Option Char
  | .verbose => some 'v'
  | .module => some 'm'
  | .settings => some 'c'
  | .outputDirectory => some 'o'
  | .help => some 'h'
  | .version => some 'V'
  | .format | .dryRun => none

/-- Whether an option has a value. -/
def takesValue : Switch → Bool
  | .format | .module | .settings | .outputDirectory => true
  | .verbose | .dryRun | .help | .version => false

/-- Whether the value of an option is a path, which is never empty. -/
def takesPath : Switch → Bool
  | .settings | .outputDirectory => true
  | _ => false

/-- Whether an option may stand in a scope. -/
def fits (switch : Switch) : Scope → Bool
  | .top =>
      match switch with
      | .verbose | .format | .help | .version => true
      | _ => false
  | .generate => true
  | .config =>
      match switch with
      | .verbose | .format | .settings | .help | .version => true
      | _ => false

end Switch

/-- Why a command line asks for no command. -/
inductive Stop where
  /-- It makes no sense. -/
  | misuse
  | help
  | version (scope : Scope)
  deriving DecidableEq, Repr

/-! ## Reading arguments -/

/-- What is read of the arguments in a scope so far. -/
structure Scan where
  scope : Scope
  given : List (Switch × String) := []
  positional : Option String := none
  /-- The option whose value comes next. -/
  pending : Option Switch := none
  /-- Whether no more options are expected. -/
  trailing : Bool := false

namespace Scan

/-- Takes in an option with its value. An option is given at most once in a scope. -/
def give (scan : Scan) (switch : Switch) (value : String) : Except Stop Scan :=
  match switch with
  | .help => .error .help
  | .version => .error (.version scan.scope)
  | switch =>
      if scan.given.any (·.1 = switch) then .error .misuse
      else if switch.takesPath && value = "" then .error .misuse
      else .ok { scan with given := scan.given ++ [(switch, value)], pending := none }

/-- Takes in an argument that is no option. Only the generation has one, a path. -/
def argument (scan : Scan) (value : String) : Except Stop Scan :=
  if scan.scope = .generate ∧ scan.positional = none ∧ value ≠ "" then
    .ok { scan with positional := some value }
  else .error .misuse

/-- Takes in an option by its long name, with the value that may follow it after an equals sign. -/
def long (scan : Scan) (s : List Char) : Except Stop Scan :=
  let name := String.ofList (s.takeWhile (· ≠ '='))
  match Switch.all.find? fun switch => switch.fits scan.scope && switch.long = name with
  | none => .error .misuse
  | some switch =>
      match s.dropWhile (· ≠ '='), switch.takesValue with
      | _ :: value, true => scan.give switch (String.ofList value)
      | _ :: _, false => .error .misuse
      | [], true =>
          if scan.given.any (·.1 = switch) then .error .misuse
          else .ok { scan with pending := some switch }
      | [], false => scan.give switch ""

/-- Takes in options by their letters. The first that has a value takes all that is left, without
an equals sign in front. -/
def letters (scan : Scan) : List Char → Except Stop Scan
  | [] => .ok scan
  | c :: rest =>
      match Switch.all.find? fun switch => switch.fits scan.scope && switch.short? = some c with
      | none => .error .misuse
      | some switch =>
          if switch.takesValue then
            match rest with
            | [] => .ok { scan with pending := some switch }
            | '=' :: value => scan.give switch (String.ofList value)
            | value => scan.give switch (String.ofList value)
          else
            match scan.give switch "" with
            | .error stop => .error stop
            | .ok scan => scan.letters rest

/-- Takes in one argument. The value of an option does not look like an option itself. -/
def take (scan : Scan) (token : String) : Except Stop Scan :=
  if scan.trailing then scan.argument token
  else
    match token.toList, scan.pending with
    | '-' :: _ :: _, some _ => .error .misuse
    | ['-', '-'], none => .ok { scan with trailing := true }
    | '-' :: '-' :: rest, none => scan.long rest
    | '-' :: c :: rest, none => scan.letters (c :: rest)
    | _, some switch => scan.give switch token
    | _, none => scan.argument token

/-- The value of an option. -/
def value? (scan : Scan) (switch : Switch) : Option String := scan.given.lookup switch

/-- Whether an option is given. -/
def has (scan : Scan) (switch : Switch) : Bool := scan.given.any (·.1 = switch)

end Scan

/-! ## Invocations -/

/-- A command with all that it needs. -/
inductive Invoked where
  | generate (request : Command.Request)
  | config (settings : Option Path)
  deriving DecidableEq, Repr

/-- A command and how to run it. -/
structure Invocation where
  verbose : Bool
  format : String
  command : Invoked
  deriving DecidableEq, Repr

/-- The invocation that the arguments before and behind a command make. What is given behind the
command goes before what is given in front of it. -/
def Invocation.ofScans (top scan : Scan) : Except Stop Invocation :=
  let verbose := top.has .verbose || scan.has .verbose
  let format := (scan.value? .format <|> top.value? .format).getD OutputFormat.standard.name
  if scan.pending.isSome then .error .misuse
  else
    match scan.scope with
    | .top => .error .misuse
    | .config =>
        .ok { verbose, format, command := .config ((scan.value? .settings).map Path.mk) }
    | .generate =>
        match scan.positional, scan.value? .module with
        | some descriptors, some module =>
            .ok { verbose, format
                  command := .generate
                    { descriptors := ⟨descriptors⟩
                      module
                      settings := (scan.value? .settings).map Path.mk
                      outputDirectory := (scan.value? .outputDirectory).map Path.mk
                      dryRun := scan.has .dryRun } }
        | _, _ => .error .misuse

/-- Reads the arguments up to the command and those behind it. -/
def parseFrom (top : Scan) : List String → Except Stop Invocation
  | [] => .error .misuse
  | token :: rest =>
      if top.pending.isSome || top.trailing then
        match top.take token with
        | .error stop => .error stop
        | .ok top => parseFrom top rest
      else if token = "help" then .error .help
      else
        match Scope.ofName? token with
        | some scope =>
            match rest.foldlM Scan.take { scope } with
            | .error stop => .error stop
            | .ok scan => Invocation.ofScans top scan
        | none =>
            match top.take token with
            | .error stop => .error stop
            | .ok top => parseFrom top rest

/-- The invocation that a command line asks for. -/
def parse (arguments : List String) : Except Stop Invocation :=
  parseFrom { scope := .top } arguments

/-! ## Running -/

/-- What of the environment matters. -/
structure Environment where
  /-- Asks for colors even where there is no terminal, unless it is zero. -/
  forceColor : Option String := none
  /-- Asks for no colors. -/
  noColor : Option String := none
  /-- Asks for colors on a terminal, unless it is zero. -/
  color : Option String := none
  /-- Whether the output is a terminal. -/
  terminal : Bool := false
  /-- Which notices to log. -/
  logFilter : Option String := none
  /-- What mocks are written with. -/
  host : Host := .counting

/-- Whether there are colors: when they are forced, or else on a terminal unless they are not
wanted. -/
def Environment.colored (environment : Environment) : Bool :=
  environment.forceColor.any (· ≠ "0") ||
    (environment.noColor.isNone && environment.terminal && environment.color.all (· ≠ "0"))

/-- How a program ends: its exit code and all it printed. -/
structure Ending where
  code : ExitCode
  printed : Command.Printed := {}
  deriving DecidableEq, Repr

/-- The version of the program. -/
def programVersion : String := "0.1.0"

/-- The name of the program, with that of a command. -/
def programName : Scope → String
  | .top => "cmockgen"
  | .generate => "cmockgen-generate"
  | .config => "cmockgen-config"

/-- How a program ends that runs no command. -/
def Stop.ending : Stop → Ending
  | .misuse => { code := .invalidInput }
  | .help => { code := .success }
  | .version scope =>
      { code := .success, printed := { out := programName scope ++ " " ++ programVersion ++ "\n" } }

/-- The job of a command. -/
def Invoked.job (command : Invoked) (manner : Command.Manner) (host : Host := .counting) :
    Job Failure Command.Printed :=
  match command with
  | .generate request => Command.generate host request manner
  | .config settings => Command.showSettings settings manner

/-- How a program ends that ran a command, given what it logged. -/
def Ending.ofResult (manner : Command.Manner) (log : String)
    (result : Except Failure Command.Printed) : Ending where
  code := Command.exitCode result
  printed :=
    match result with
    | .ok printed => { printed with err := log ++ printed.err }
    | .error failure =>
        let alarm := String.ofList (Style.alarm.paint manner.colored "error:".toList)
        { err := log ++ alarm ++ " " ++ failure.report ++ "\n" }

/-- Runs a command and logs what it tells before what it prints. -/
def Invocation.run (invocation : Invocation) (environment : Environment) : Task Ending :=
  match OutputFormat.ofName invocation.format with
  | .error fault =>
      pure { code := .error, printed := { err := "Error: " ++ fault.message ++ "\n" } }
  | .ok format =>
      let manner : Command.Manner := { format, colored := environment.colored }
      let filter := Filter.choose invocation.verbose environment.logFilter
      fun start =>
        let done := (invocation.command.job manner environment.host).run start
        let log := String.join ((done.notices.filter filter.admits).map Notice.line)
        { done with value := Ending.ofResult manner log done.value }

/-- Runs the program with some arguments. -/
def run (arguments : List String) (environment : Environment) : Task Ending :=
  match parse arguments with
  | .error stop => pure stop.ending
  | .ok invocation => invocation.run environment

end MockForge.CommandLine

import MockForge.Fault
import MockForge.Json.Printer

/-!
# Reports

What commands report, in one of three formats. The pretty format is for the eye: members are sorted
by their keys, texts stand as they are, and every value may have a color. A colored text that holds
the sequence that ends a color gets its own color back after it.
-/

namespace MockForge

/-! ## Formats -/

/-- A format of reports. -/
inductive OutputFormat where
  | json
  | text
  | pretty
  deriving DecidableEq, Repr, Inhabited

namespace OutputFormat

/-- The format of reports when none is asked for. -/
def standard : OutputFormat := .pretty

/-- What a format is called. -/
def name : OutputFormat → String
  | .json => "json"
  | .text => "text"
  | .pretty => "pretty"

/-- The format of a name, in letters of either case. -/
def ofName (name : String) : Except Fault OutputFormat :=
  let small := name.map Char.toLower
  if small = "json" then .ok .json
  else if small = "text" then .ok .text
  else if small = "pretty" then .ok .pretty
  else
    .error (.argument
      ("invalid output format: '" ++ name ++ "' (expected: json, text, or pretty)"))

end OutputFormat

/-! ## Colors -/

/-- What is colored alike. -/
inductive Style where
  | null
  | boolean
  | number
  | text
  | key
  /-- The word in front of an error. -/
  | alarm
  deriving DecidableEq, Repr

namespace Style

/-- The numbers of a style on a terminal. -/
def numbers : Style → String
  | .null => "2"
  | .boolean => "33"
  | .number => "36"
  | .text => "32"
  | .key => "1;34"
  | .alarm => "1;31"

/-- The sequence that begins a style. -/
def opening (style : Style) : List Char := '\x1b' :: '[' :: (style.numbers.toList ++ ['m'])

/-- The sequence that ends every style. -/
def ending : List Char := ['\x1b', '[', '0', 'm']

/-- A text in which a style comes back after each sequence that ends it. -/
def kept (style : Style) : List Char → List Char
  | '\x1b' :: '[' :: '0' :: 'm' :: rest =>
      '\x1b' :: '[' :: '0' :: 'm' :: (style.opening ++ kept style rest)
  | c :: rest => c :: kept style rest
  | [] => []

/-- A text in a style, or plain where there are no colors. -/
def paint (colored : Bool) (style : Style) (text : List Char) : List Char :=
  if colored then style.opening ++ kept style text ++ ending else text

end Style

/-! ## Printing -/

namespace Report

mutual

/-- The pretty form of a value that stands at the given level. -/
def pretty (colored : Bool) (level : Nat) : Json.Value → List Char
  | .null => Style.null.paint colored "null".toList
  | .boolean value => Style.boolean.paint colored (Json.booleanText value)
  | .number value => Style.number.paint colored (Json.integerText value)
  | .text value => '"' :: (Style.text.paint colored value.toList ++ ['"'])
  | .list items => Json.block '[' ']' level (prettyItems colored (level + 1) items)
  | .object members => Json.block '{' '}' level (prettyMembers colored (level + 1) members)

/-- The pretty forms of the items of a list. -/
def prettyItems (colored : Bool) (level : Nat) : List Json.Value → List (List Char)
  | [] => []
  | item :: rest => pretty colored level item :: prettyItems colored level rest

/-- The pretty forms of the members of an object. -/
def prettyMembers (colored : Bool) (level : Nat) :
    List (String × Json.Value) → List (List Char)
  | [] => []
  | (key, value) :: rest =>
      ('"' :: (Style.key.paint colored key.toList ++ '"' :: ':' :: ' ' ::
        pretty colored level value)) :: prettyMembers colored level rest

end

/-- A value in a format. -/
def print (format : OutputFormat) (colored : Bool) (value : Json.Value) : String :=
  match format with
  | .json => value.indentedText
  | .text => value.compactText
  | .pretty => String.ofList (pretty colored 0 value.sorted)

/-- What is reported of a generated mock. -/
structure Generation where
  module : String
  mockName : String
  functionCount : Nat
  outputDirectory : String
  /-- Where the files were written, or what they are called when they were not. -/
  files : List String
  dryRun : Bool
  deriving DecidableEq, Repr

/-- The report of a generated mock as a JSON object. -/
def Generation.toJson (report : Generation) : Json.Value :=
  .object
    [("module", .text report.module),
     ("mock_name", .text report.mockName),
     ("function_count", .number report.functionCount),
     ("output_dir", .text report.outputDirectory),
     ("files", .texts report.files),
     ("dry_run", .boolean report.dryRun)]

end Report

end MockForge

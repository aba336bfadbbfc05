import MockForge.Fault
import MockForge.Json.Value
import MockForge.Path
import MockForge.Text.Blank
import MockForge.Toml.Document

/-!
# Settings

How mocks are named, indented and included, and where they go. Settings come from a TOML document:
each of the five known keys may be there or not, and no other key counts.
-/

namespace MockForge

/-- What a user can set. -/
structure Settings where
  /-- What the name of a mock starts with. -/
  mockPrefix : String := "Mock"
  /-- The unit of indentation. -/
  tab : String := "  "
  /-- Headers that the header of every mock includes. -/
  includes : List String := []
  /-- The header of the test framework. -/
  frameworkHeader : String := "unity.h"
  /-- The directory that mocks are written to. -/
  mockPath : Path := ⟨"mocks"⟩
  deriving DecidableEq, Repr

namespace Settings

/-- Whether two settings are the same, with paths compared by their components. -/
def same (a b : Settings) : Bool :=
  a.mockPrefix = b.mockPrefix && a.tab = b.tab && a.includes = b.includes &&
    a.frameworkHeader = b.frameworkHeader && a.mockPath.same b.mockPath

/-! ## What is valid -/

/-- The characters of a name in C. -/
def isSymbolChar (c : Char) : Bool := c.isAlphanum || c = '_'

/-- The first rule that settings break. -/
def fault? (settings : Settings) : Option Fault :=
  if !settings.mockPrefix.toList.all isSymbolChar then
    some (.validation "mock_prefix"
      ("'" ++ settings.mockPrefix ++ "' is not a valid C identifier prefix"))
  else if Text.isBlank settings.frameworkHeader then
    some (.validation "framework_header" "cannot be empty")
  else if settings.includes.any Text.isBlank then
    some (.validation "includes" "entries cannot be empty")
  else none

/-- Settings that break no rule. -/
def validated (settings : Settings) : Except Fault Settings :=
  match settings.fault? with
  | some fault => .error fault
  | none => .ok settings

/-! ## What is written of them -/

/-- The directives for the headers that every mock includes. -/
def includeBlock (settings : Settings) : String :=
  String.join (settings.includes.map fun header => "#include \"" ++ header ++ "\"\n")

/-- The settings as a JSON object. -/
def toJson (settings : Settings) : Json.Value :=
  .object
    [("mock_prefix", .text settings.mockPrefix),
     ("tab", .text settings.tab),
     ("includes", .texts settings.includes),
     ("framework_header", .text settings.frameworkHeader),
     ("mock_path", .text settings.mockPath.spelling)]

/-! ## Reading them -/

/-- The text that a value has to be. -/
def expectText (expected : String) : Toml.Value → Except Toml.Fault String
  | .text value => .ok value
  | value => .error (value.misplaced expected)

/-- The list of texts that a value has to be. -/
def expectTexts : Toml.Value → Except Toml.Fault (List String)
  | .list items => items.mapM (expectText "a string")
  | value => .error (value.misplaced "a sequence")

mutual

/-- Whether all numbers in a value fit a machine number. -/
def inRange : Toml.Value → Bool
  | .list items => itemsInRange items
  | .table entries => entriesInRange entries
  | value => value.found.isOk

/-- Whether all numbers in some values fit a machine number. -/
def itemsInRange : List Toml.Value → Bool
  | [] => true
  | item :: rest => inRange item && itemsInRange rest

/-- Whether all numbers in the values of a table fit a machine number. -/
def entriesInRange : List (String × Toml.Value) → Bool
  | [] => true
  | (_, value) :: rest => inRange value && entriesInRange rest

end

/-- Takes in one entry of a document. -/
def take (settings : Settings) (entry : String × Toml.Value) : Except Toml.Fault Settings :=
  match entry with
  | ("mock_prefix", value) =>
      (expectText "a string" value).map fun text => { settings with mockPrefix := text }
  | ("tab", value) => (expectText "a string" value).map fun text => { settings with tab := text }
  | ("includes", value) =>
      (expectTexts value).map fun texts => { settings with includes := texts }
  | ("framework_header", value) =>
      (expectText "a string" value).map fun text => { settings with frameworkHeader := text }
  | ("mock_path", value) =>
      (expectText "path string" value).map fun text => { settings with mockPath := ⟨text⟩ }
  | (_, value) => if inRange value then .ok settings else .error .outOfRange

/-- Puts an entry before the first one with a greater key. -/
def insertEntry (entry : String × Toml.Value) : Toml.Table → Toml.Table
  | [] => [entry]
  | next :: rest =>
      if entry.1 < next.1 then entry :: next :: rest else next :: insertEntry entry rest

/-- The settings that a table holds, with defaults for what it lacks. The entries are looked at in
the order of their keys, so the first wrong one in that order is reported. -/
def ofTable (table : Toml.Table) : Except Toml.Fault Settings :=
  (table.foldr insertEntry []).foldlM take {}

/-- The settings that a TOML document holds, if they are valid. -/
def ofToml (document : String) : Except Fault Settings :=
  match Toml.document document with
  | .error _ => .error (.configuration (.document .malformed))
  | .ok table =>
      match ofTable table with
      | .error cause => .error (.configuration (.document cause))
      | .ok settings => settings.validated

end Settings

end MockForge

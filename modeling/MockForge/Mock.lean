import MockForge.Json.Reader
import MockForge.Json.Value
import MockForge.Name

/-!
# Mocks

A finished mock: its name and its files, each a path and a whole text.
-/

namespace MockForge

/-- A generated file. Its path is relative to the directory that mocks are written to. -/
structure MockFile where
  path : String
  content : String
  deriving DecidableEq, Repr

/-- A generated mock. -/
structure Mock where
  name : MockName
  files : List MockFile := []
  deriving DecidableEq, Repr

namespace MockFile

/-- A file as a JSON object. -/
def toJson (file : MockFile) : Json.Value :=
  .object [("path", .text file.path), ("content", .text file.content)]

/-- The fields that are read of a file so far. -/
structure Draft where
  path : Option String := none
  content : Option String := none

/-- The file that a draft makes, or the key of the field that it lacks. -/
def Draft.finish (draft : Draft) : Except String MockFile :=
  match draft.path, draft.content with
  | none, _ => .error "path"
  | some _, none => .error "content"
  | some path, some content => .ok ⟨path, content⟩

/-- How a file is read. -/
def record : Json.Record Draft MockFile where
  name := "GeneratedFile"
  blank := {}
  fields :=
    [⟨"path", (·.path.isSome), fun d => Json.text.map fun v => { d with path := some v }⟩,
     ⟨"content", (·.content.isSome), fun d => Json.text.map fun v => { d with content := some v }⟩]
  finish := Draft.finish

end MockFile

namespace Mock

/-- The first file with a path. -/
def file? (mock : Mock) (path : String) : Option MockFile :=
  mock.files.find? fun file => file.path = path

/-- A mock as a JSON object. -/
def toJson (mock : Mock) : Json.Value :=
  .object
    [("mock_name", .text mock.name.text), ("files", .list (mock.files.map MockFile.toJson))]

/-- The fields that are read of a mock so far. -/
structure Draft where
  name : Option String := none
  files : Option (List MockFile) := none

/-- The mock that a draft makes, or the key of the field that it lacks. -/
def Draft.finish (draft : Draft) : Except String Mock :=
  match draft.name, draft.files with
  | none, _ => .error "mock_name"
  | some _, none => .error "files"
  | some name, some files => .ok ⟨⟨name⟩, files⟩

/-- How a mock is read. -/
def record : Json.Record Draft Mock where
  name := "GeneratedMock"
  blank := {}
  fields :=
    [⟨"mock_name", (·.name.isSome), fun d => Json.text.map fun v => { d with name := some v }⟩,
     ⟨"files", (·.files.isSome),
      fun d => (Json.list MockFile.record.reader).map fun v => { d with files := some v }⟩]
  finish := Draft.finish

/-- The mock that a JSON document holds. -/
def ofJson (document : String) : Except Json.Fault Mock := Json.document record.reader document

end Mock

end MockForge

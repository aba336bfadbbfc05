import MockForge.Fault
import MockForge.Json.Printer
import MockForge.Signature

/-!
# Parsed headers

The functions that a header declares, in the order in which it declares them.
-/

namespace MockForge

/-- A header that has been parsed into its functions. -/
structure Header where
  functions : List Signature := []
  deriving DecidableEq, Repr

namespace Header

/-- A header as a JSON object. -/
def toJson (header : Header) : Json.Value :=
  .object [("functions", .list (header.functions.map Signature.toJson))]

/-- How a header is read. -/
def record : Json.Record (Option (List Signature)) Header where
  name := "ParsedHeader"
  blank := none
  fields := [⟨"functions", Option.isSome, fun _ => (Json.list Signature.reader).map some⟩]
  finish functions := .ok ⟨functions.getD []⟩

/-- The header that a JSON document holds, or what is wrong with the document. -/
def ofJson? (document : String) : Except Json.Fault Header := Json.document record.reader document

/-- The header that a document of function descriptors holds. -/
def ofJson (document : String) : Except Fault Header :=
  (ofJson? document).mapError fun cause =>
    .serialization ("invalid function descriptor document: " ++ cause.message) (some cause)

/-- The names that more than one function has, each once, in the order of their first
functions. -/
def duplicates (header : Header) : List String :=
  let names := header.functions.map Signature.name
  names.eraseDups.filter fun name => 1 < names.count name

end Header

end MockForge

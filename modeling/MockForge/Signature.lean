import MockForge.Json.Reader
import MockForge.Json.Value
import MockForge.Text.Blank

/-!
# Signatures

A function as it is declared in a header: its name, what it returns, and what it takes. Its JSON
form has seven fields, of which all but the first two may be left out.
-/

namespace MockForge

/-! ## Parameters -/

/-- What a function takes: nothing is said, `void` is said, or there is a list. -/
inductive Parameters where
  | empty
  | void
  | list (text : String) (args : List String)
  deriving DecidableEq, Repr

namespace Parameters

/-- The parameters with a text and single arguments. Without any argument, no text and the text
`void` have meanings of their own. -/
def classify (text : String) (args : List String) : Parameters :=
  match args with
  | [] => if text = "" then .empty else if text = "void" then .void else .list text []
  | args => .list text args

/-- The text between the parentheses. -/
def text : Parameters → String
  | .empty => ""
  | .void => "void"
  | .list text _ => text

/-- The single arguments. -/
def args : Parameters → List String
  | .empty | .void => []
  | .list _ args => args

end Parameters

/-! ## Signatures -/

/-- A declared function. -/
structure Signature where
  name : String
  returnType : String
  modifier : Option String := none
  attributes : Option String := none
  parameters : Parameters := .empty
  /-- What stands for arguments that are not listed. -/
  variadic : Option String := none
  deriving DecidableEq, Repr

namespace Signature

/-- All that stands between the parentheses of the function. -/
def parameterText (f : Signature) : String :=
  match f.variadic with
  | some variadic => f.parameters.text ++ ", " ++ variadic
  | none => f.parameters.text

/-- Whether the function returns nothing. -/
def returnsVoid (f : Signature) : Bool := Text.trim f.returnType = "void"

/-! ## The JSON form -/

/-- A signature as a JSON object. What is absent is left out. -/
def toJson (f : Signature) : Json.Value :=
  .object
    ([("name", .text f.name), ("rettype", .text f.returnType)]
      ++ Json.optionalMember "modifier" f.modifier
      ++ Json.optionalMember "attributes" f.attributes
      ++ [("args_string", .text f.parameters.text), ("args", .texts f.parameters.args)]
      ++ Json.optionalMember "var_arg" f.variadic)

/-- The fields that are read of a signature so far. -/
structure Draft where
  name : Option String := none
  returnType : Option String := none
  modifier : Option (Option String) := none
  attributes : Option (Option String) := none
  argsText : Option String := none
  args : Option (List String) := none
  variadic : Option (Option String) := none

/-- The signature that a draft makes, or the key of the field that it lacks. -/
def Draft.finish (draft : Draft) : Except String Signature :=
  match draft.name, draft.returnType with
  | none, _ => .error "name"
  | some _, none => .error "rettype"
  | some name, some returnType =>
      .ok {
        name, returnType
        modifier := draft.modifier.join
        attributes := draft.attributes.join
        parameters := .classify (draft.argsText.getD "") (draft.args.getD [])
        variadic := draft.variadic.join }

/-- How a signature is read. -/
def record : Json.Record Draft Signature where
  name := "WireFunction"
  blank := {}
  fields :=
    [⟨"name", (·.name.isSome), fun d => Json.text.map fun v => { d with name := some v }⟩,
     ⟨"rettype", (·.returnType.isSome),
      fun d => Json.text.map fun v => { d with returnType := some v }⟩,
     ⟨"modifier", (·.modifier.isSome),
      fun d => Json.optionalText.map fun v => { d with modifier := some v }⟩,
     ⟨"attributes", (·.attributes.isSome),
      fun d => Json.optionalText.map fun v => { d with attributes := some v }⟩,
     ⟨"args_string", (·.argsText.isSome),
      fun d => Json.text.map fun v => { d with argsText := some v }⟩,
     ⟨"args", (·.args.isSome),
      fun d => (Json.list Json.text).map fun v => { d with args := some v }⟩,
     ⟨"var_arg", (·.variadic.isSome),
      fun d => Json.optionalText.map fun v => { d with variadic := some v }⟩]
  finish := Draft.finish

/-- Reads a signature. -/
def reader : Reader Json.Fault Signature := record.reader

/-- The signature that a JSON document holds. -/
def ofJson (document : String) : Except Json.Fault Signature := Json.document reader document

end Signature

end MockForge

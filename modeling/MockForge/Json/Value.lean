/-!
# JSON values

Values whose numbers are integers and whose objects keep their members in order.
-/

namespace MockForge.Json

/-- A JSON value. -/
inductive Value where
  | null
  | boolean (value : Bool)
  | number (value : Int)
  | text (value : String)
  | list (items : List Value)
  | object (members : List (String × Value))
  deriving Repr, Inhabited

/-- Puts a member before the first one with a greater key. -/
def insertMember (member : String × Value) : List (String × Value) → List (String × Value)
  | [] => [member]
  | next :: rest =>
      if member.1 < next.1 then member :: next :: rest else next :: insertMember member rest

mutual

/-- The value with the members of every object in the order of their keys. -/
def Value.sorted : Value → Value
  | .null => .null
  | .boolean value => .boolean value
  | .number value => .number value
  | .text value => .text value
  | .list items => .list (sortedItems items)
  | .object members => .object (sortedMembers members)

/-- Every item of a list sorted. -/
def sortedItems : List Value → List Value
  | [] => []
  | item :: rest => item.sorted :: sortedItems rest

/-- The members of an object, sorted themselves and among each other. -/
def sortedMembers : List (String × Value) → List (String × Value)
  | [] => []
  | (key, value) :: rest => insertMember (key, value.sorted) (sortedMembers rest)

end

/-- A member that is left out when there is no value for it. -/
def optionalMember (key : String) : Option String → List (String × Value)
  | none => []
  | some value => [(key, .text value)]

/-- A list of texts. -/
def Value.texts (items : List String) : Value := .list (items.map .text)

end MockForge.Json

import MockForge.Json.Literal
import MockForge.Json.Value

/-!
# Printing JSON values

The compact form, without any blank, and the indented form, with one item or member per line.
-/

namespace MockForge.Json

/-- Texts with a separator between each two. -/
def joined (separator : List Char) : List (List Char) → List Char
  | [] => []
  | [text] => text
  | text :: rest => text ++ separator ++ joined separator rest

/-- The indentation of a level: two spaces for each. -/
def indentation (level : Nat) : List Char := List.replicate (2 * level) ' '

/-- Lines between brackets: nothing between them when there are no lines, otherwise each line at
the inner level and the closing bracket at the outer one. -/
def block (opening closing : Char) (level : Nat) : List (List Char) → List Char
  | [] => [opening, closing]
  | lines =>
      opening :: '\n' :: (joined [',', '\n'] (lines.map (indentation (level + 1) ++ ·))
        ++ '\n' :: (indentation level ++ [closing]))

/-- An integer in decimal digits. -/
def integerText (n : Int) : List Char := (toString n).toList

/-- The word for a truth value. -/
def booleanText (b : Bool) : List Char := (if b then "true" else "false").toList

mutual

/-- The compact form of a value. -/
def Value.compact : Value → List Char
  | .null => "null".toList
  | .boolean value => booleanText value
  | .number value => integerText value
  | .text value => literal value
  | .list items => '[' :: (joined [','] (compactItems items) ++ [']'])
  | .object members => '{' :: (joined [','] (compactMembers members) ++ ['}'])

/-- The compact forms of the items of a list. -/
def compactItems : List Value → List (List Char)
  | [] => []
  | item :: rest => item.compact :: compactItems rest

/-- The compact forms of the members of an object. -/
def compactMembers : List (String × Value) → List (List Char)
  | [] => []
  | (key, value) :: rest => (literal key ++ ':' :: value.compact) :: compactMembers rest

end

mutual

/-- The indented form of a value that stands at the given level. -/
def Value.indented (level : Nat) : Value → List Char
  | .null => "null".toList
  | .boolean value => booleanText value
  | .number value => integerText value
  | .text value => literal value
  | .list items => block '[' ']' level (indentedItems (level + 1) items)
  | .object members => block '{' '}' level (indentedMembers (level + 1) members)

/-- The indented forms of the items of a list. -/
def indentedItems (level : Nat) : List Value → List (List Char)
  | [] => []
  | item :: rest => item.indented level :: indentedItems level rest

/-- The indented forms of the members of an object. -/
def indentedMembers (level : Nat) : List (String × Value) → List (List Char)
  | [] => []
  | (key, value) :: rest =>
      (literal key ++ ':' :: ' ' :: value.indented level) :: indentedMembers level rest

end

/-- The compact text of a value. -/
def Value.compactText (value : Value) : String := String.ofList value.compact

/-- The indented text of a value. -/
def Value.indentedText (value : Value) : String := String.ofList (value.indented 0)

end MockForge.Json

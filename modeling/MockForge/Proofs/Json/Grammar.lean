import MockForge.Json.Printer
import MockForge.Json.Text

/-!
# The grammar of JSON documents

The spelling of a value is a tree that keeps how the value is written: the blanks between its parts,
the form of each character of a text, the digits of each number. Every spelling has its characters,
and the well-formed values are those that are the characters of a spelling.
-/

namespace MockForge.Json

/-! ## Blanks -/

/-- Blank between two parts of a document. -/
structure Blank where
  chars : List Char := []
  all_isSpace : chars.all isSpace = true := by decide

/-! ## Text literals -/

/-- A character that has an escape of one letter. -/
inductive Escape where
  | quote
  | backslash
  | slash
  | backspace
  | formFeed
  | newline
  | carriageReturn
  | tab
  deriving DecidableEq, Repr

namespace Escape

/-- What stands behind the backslash. -/
def letter : Escape → Char
  | .quote => '"'
  | .backslash => '\\'
  | .slash => '/'
  | .backspace => 'b'
  | .formFeed => 'f'
  | .newline => 'n'
  | .carriageReturn => 'r'
  | .tab => 't'

/-- The character that is meant. -/
def char : Escape → Char
  | .quote => '"'
  | .backslash => '\\'
  | .slash => '/'
  | .backspace => '\x08'
  | .formFeed => '\x0c'
  | .newline => '\n'
  | .carriageReturn => '\r'
  | .tab => '\t'

end Escape

/-- A hexadecimal digit of either case. -/
structure HexDigit where
  char : Char
  value : Nat
  isHex : hexValue? char = some value := by decide

/-- A piece of a text literal: a character as it is, behind a backslash, or by its number, which is
a unit of UTF-16 in four hexadecimal digits. -/
inductive Piece where
  | plain (c : Char) (h : c ≠ '"' ∧ c ≠ '\\' ∧ ¬c.toNat < 0x20)
  | escape (e : Escape)
  | unit (a b c d : HexDigit)

/-- How a piece is written. -/
def Piece.chars : Piece → List Char
  | .plain c _ => [c]
  | .escape e => ['\\', e.letter]
  | .unit a b c d => ['\\', 'u', a.char, b.char, c.char, d.char]

/-- The number that four hexadecimal digits write. -/
def unitValue (a b c d : HexDigit) : Nat :=
  ((a.value * 16 + b.value) * 16 + c.value) * 16 + d.value

/-- The characters that pieces stand for. A unit that is half of a surrogate pair stands for none
unless the other half follows or precedes it. -/
def decoded : List Piece → Option (List Char)
  | [] => some []
  | .plain c _ :: rest => (decoded rest).map (c :: ·)
  | .escape e :: rest => (decoded rest).map (e.char :: ·)
  | .unit a b c d :: rest =>
      let n := unitValue a b c d
      if isLowSurrogate n then none
      else if isHighSurrogate n then
        match rest with
        | .unit a' b' c' d' :: rest =>
            let low := unitValue a' b' c' d'
            if isLowSurrogate low then (decoded rest).map (pairedChar n low :: ·) else none
        | _ => none
      else (decoded rest).map (Char.ofNat n :: ·)

/-- A text literal. -/
structure Literal where
  pieces : List Piece

namespace Literal

/-- The literal of characters that stand in it as they are. -/
def plain (cs : List Char) (h : ∀ c ∈ cs, c ≠ '"' ∧ c ≠ '\\' ∧ ¬c.toNat < 0x20 := by simp) :
    Literal :=
  ⟨cs.pmap Piece.plain h⟩

/-- How a literal is written, its opening quote apart. -/
def tail (literal : Literal) : List Char := literal.pieces.flatMap Piece.chars ++ ['"']

/-- How a literal is written. -/
def chars (literal : Literal) : List Char := '"' :: literal.tail

/-- The text that a literal stands for, if its surrogate escapes are paired. -/
def text? (literal : Literal) : Option String := (decoded literal.pieces).map String.ofList

end Literal

/-! ## Numerals -/

/-- One or more decimal digits. -/
structure Digits where
  chars : List Char
  ne_nil : chars ≠ [] := by decide
  all_isDigit : chars.all Char.isDigit = true := by decide

/-- The exponent of a numeral: its letter, its sign if it has one, and its digits. -/
structure Exponent where
  capital : Bool
  negative : Option Bool
  digits : Digits

/-- How an exponent is written. -/
def Exponent.chars (exponent : Exponent) : List Char :=
  (if exponent.capital then 'E' else 'e') ::
    ((exponent.negative.map fun negative => if negative then '-' else '+').toList
      ++ exponent.digits.chars)

/-- A number as it is written. No zero stands before the other digits of its whole part. -/
structure Numeral where
  negative : Bool
  whole : Digits
  fraction : Option Digits
  exponent : Option Exponent
  leading : whole.chars = ['0'] ∨ whole.chars.head? ≠ some '0' := by decide

namespace Numeral

/-- What follows the whole part of a numeral. -/
def tail (numeral : Numeral) : List Char :=
  (numeral.fraction.map fun digits => '.' :: digits.chars).getD []
    ++ (numeral.exponent.map Exponent.chars).getD []

/-- How a numeral is written. -/
def chars (numeral : Numeral) : List Char :=
  (if numeral.negative then ['-'] else []) ++ (numeral.whole.chars ++ numeral.tail)

end Numeral

/-! ## Values -/

/-- A value with the blanks before and after it. -/
structure Item (α : Type) where
  before : Blank := {}
  value : α
  after : Blank := {}

/-- A member of an object: a key with the blanks around it, and a value with those around it. -/
structure Member (α : Type) where
  beforeKey : Blank := {}
  key : Literal
  afterKey : Blank := {}
  item : Item α

/-- How a value is spelled. An empty list or object may have blanks inside. -/
inductive Spelling where
  | null
  | boolean (value : Bool)
  | number (numeral : Numeral)
  | text (literal : Literal)
  | list (items : List (Item Spelling)) (inside : Blank)
  | object (members : List (Member Spelling)) (inside : Blank)

mutual

/-- How a value is written. -/
def Spelling.chars : Spelling → List Char
  | .null => "null".toList
  | .boolean value => booleanText value
  | .number numeral => numeral.chars
  | .text literal => literal.chars
  | .list items inside => '[' :: (joined [','] (itemTexts items) ++ (inside.chars ++ [']']))
  | .object members inside =>
      '{' :: (joined [','] (memberTexts members) ++ (inside.chars ++ ['}']))

/-- How the items of a list are written. -/
def itemTexts : List (Item Spelling) → List (List Char)
  | [] => []
  | ⟨before, value, after⟩ :: rest =>
      (before.chars ++ (value.chars ++ after.chars)) :: itemTexts rest

/-- How the members of an object are written. -/
def memberTexts : List (Member Spelling) → List (List Char)
  | [] => []
  | ⟨beforeKey, key, afterKey, ⟨before, value, after⟩⟩ :: rest =>
      (beforeKey.chars ++ (key.chars ++ (afterKey.chars ++
        ':' :: (before.chars ++ (value.chars ++ after.chars))))) :: memberTexts rest

end

end MockForge.Json

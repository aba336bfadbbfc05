import MockForge.Text.Invisible

/-!
# Quoted texts

A text between double quotes, in the form that reports show values in: quotes and backslashes
behind a backslash, the common controls by letter, every other invisible character by number. A
record is its name and its fields between braces.
-/

namespace MockForge.Text

/-- The digits of a number to the base sixteen, lower case and without leading zeros. -/
def hexDigits (n : Nat) : List Char := Nat.toDigits 16 n

/-- How one character stands in a quoted text. -/
def quotedChar (c : Char) : List Char :=
  if c = '"' then ['\\', '"']
  else if c = '\\' then ['\\', '\\']
  else if c = '\n' then ['\\', 'n']
  else if c = '\t' then ['\\', 't']
  else if c = '\r' then ['\\', 'r']
  else if c = '\x00' then ['\\', '0']
  else if isInvisible c then ['\\', 'u', '{'] ++ hexDigits c.toNat ++ ['}']
  else [c]

/-- A text between double quotes, with nothing invisible left in it. -/
def quoted (s : String) : String :=
  String.ofList ('"' :: (s.toList.flatMap quotedChar ++ ['"']))

/-- A record written out for a diagnosis. -/
def record (name : String) (fields : List String) : String :=
  name ++ String.ofList [' ', '{', ' '] ++ ", ".intercalate fields ++ String.ofList [' ', '}']

end MockForge.Text

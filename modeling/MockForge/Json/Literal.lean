/-!
# Text literals

How texts stand in JSON documents: between double quotes, with quotes, backslashes and control
characters written as escapes and everything else as it is.
-/

namespace MockForge.Json

/-- How one character stands in a literal. -/
def escapedChar (c : Char) : List Char :=
  if c = '"' then ['\\', '"']
  else if c = '\\' then ['\\', '\\']
  else if c = '\x08' then ['\\', 'b']
  else if c = '\x0c' then ['\\', 'f']
  else if c = '\n' then ['\\', 'n']
  else if c = '\r' then ['\\', 'r']
  else if c = '\t' then ['\\', 't']
  else if c.toNat < 0x20 then
    ['\\', 'u', '0', '0', Nat.digitChar (c.toNat / 16), Nat.digitChar (c.toNat % 16)]
  else [c]

/-- The literal of a text. -/
def literal (s : String) : List Char := '"' :: (s.toList.flatMap escapedChar ++ ['"'])

end MockForge.Json

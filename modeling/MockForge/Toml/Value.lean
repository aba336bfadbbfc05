/-!
# TOML values

Integers may be of any size and decimal numbers are kept as they are written; whether they fit a
machine number is a question for whoever uses them.
-/

namespace MockForge.Toml

/-- A number with a point or an exponent, or one of the words for no finite number. -/
inductive DecimalNumber where
  | infinity (negative : Bool)
  | notANumber
  | finite (negative : Bool) (digits : Nat) (exponent : Int)
  deriving DecidableEq, Repr

/-- A TOML value. The parts of dates and times are checked and not kept. -/
inductive Value where
  | text (value : String)
  | integer (value : Int)
  | decimal (value : DecimalNumber)
  | boolean (value : Bool)
  | moment
  | list (items : List Value)
  | table (entries : List (String × Value))
  deriving Repr

/-- The entries of a table, in the order in which they were first written. -/
abbrev Table := List (String × Value)

/-- A text that is no TOML document. -/
inductive Malformed where
  | malformed
  deriving DecidableEq, Repr

end MockForge.Toml

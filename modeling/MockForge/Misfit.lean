import MockForge.Text.Quoted

/-!
# Values of the wrong form

What is said of a well-formed document that does not hold what is read from it.
-/

namespace MockForge

/-- A value met where another form was expected. A list or an object is known by its bracket; a
decimal number is kept as its text. -/
inductive Found where
  | null
  | boolean (value : Bool)
  | integer (value : Int)
  | decimal (digits : String)
  | text (value : String)
  | list
  | object
  deriving DecidableEq, Repr

/-- The width that is told of an integer beyond 64 bits. -/
def integerWidth (value : Int) : String :=
  if -Int.pow 2 63 ≤ value ∧ value < Int.pow 2 64 then ""
  else if value < Int.pow 2 127 then " as i128"
  else " as u128"

/-- How a met value is spoken of. -/
def Found.describe : Found → String
  | .null => "null"
  | .boolean value => "boolean `" ++ (if value then "true" else "false") ++ "`"
  | .integer value => "integer `" ++ toString value ++ "`" ++ integerWidth value
  | .decimal digits => "floating point `" ++ digits ++ "`"
  | .text value => "string " ++ Text.quoted value
  | .list => "sequence"
  | .object => "map"

/-- Why a well-formed document does not fit. -/
inductive Misfit where
  | wrongForm (found : Found) (expected : String)
  | missingField (key : String)
  | repeatedField (key : String)
  | tooShort (length : Nat) (expected : String)
  deriving DecidableEq, Repr

/-- The wording of a misfit. -/
def Misfit.message : Misfit → String
  | .wrongForm found expected => "invalid type: " ++ found.describe ++ ", expected " ++ expected
  | .missingField key => "missing field `" ++ key ++ "`"
  | .repeatedField key => "duplicate field `" ++ key ++ "`"
  | .tooShort length expected => "invalid length " ++ toString length ++ ", expected " ++ expected

end MockForge

import MockForge.Decimal.Shortest
import MockForge.Misfit
import MockForge.Toml.Value

/-!
# What can be wrong with a TOML document

A document may be malformed; a well-formed one may hold a number that fits no machine number, or a
value of the wrong form.
-/

namespace MockForge.Toml

/-- Why a document cannot be used. -/
inductive Fault where
  | malformed
  | outOfRange
  | misfit (cause : Misfit)
  deriving DecidableEq, Repr

/-- The wording of a fault. -/
def Fault.message : Fault → String
  | .malformed => "malformed document"
  | .outOfRange => "number out of range"
  | .misfit cause => cause.message

/-- Decimal numbers in reports never have an exponent. -/
def decimalLayout : Decimal.Layout := ⟨fun _ => true⟩

/-- The double nearest to a decimal number; nothing when only an infinity is near. Beyond four
hundred places on either side of the point the digits do not matter. -/
def DecimalNumber.toFloat? : DecimalNumber → Option Float
  | .infinity negative => some (if negative then -1.0 / 0.0 else 1.0 / 0.0)
  | .notANumber => some (0.0 / 0.0)
  | .finite negative digits exponent =>
      let first := exponent + (Decimal.digitCount digits : Int)
      let magnitude :=
        if digits = 0 || first < -400 then 0.0
        else if 400 < first then 1.0 / 0.0
        else Float.ofScientific digits (exponent < 0) exponent.natAbs
      if magnitude.isInf then none else some (if negative then -magnitude else magnitude)

/-- What a report says of a value. Numbers have to fit a machine number: 128 bits for integers. -/
def Value.found : Value → Except Fault Found
  | .text value => .ok (.text value)
  | .integer value =>
      if -Int.pow 2 127 ≤ value ∧ value < Int.pow 2 128 then .ok (.integer value)
      else .error .outOfRange
  | .decimal value =>
      match value.toFloat? with
      | some x => .ok (.decimal (Decimal.text decimalLayout x))
      | none => .error .outOfRange
  | .boolean value => .ok (.boolean value)
  | .moment => .ok .object
  | .list _ => .ok .list
  | .table _ => .ok .object

/-- The fault of a value that stands where another form is expected. -/
def Value.misplaced (value : Value) (expected : String) : Fault :=
  match value.found with
  | .error fault => fault
  | .ok found => .misfit (.wrongForm found expected)

end MockForge.Toml

import MockForge.Decimal.Shortest
import MockForge.Json.Fault

/-!
# Numbers where none is expected

A number that stands where another form belongs is still read to its end: only a well-formed one
is reported as misplaced, with its value. Integers that fit 64 bits are reported as integers, all
others as double precision numbers.
-/

namespace MockForge.Json

/-- The value of a decimal digit. -/
def digitValue (c : Char) : Nat := c.toNat - '0'.toNat

/-- The largest significand that is kept. -/
def significandLimit : Nat := Nat.pow 2 64 - 1

/-- Numbers in reports are written with an exponent from `1e16` up and below `1e-5`. -/
def numberLayout : Decimal.Layout := ⟨fun exponent => -5 ≤ exponent && exponent < 16⟩

/-- Extends a significand by digits for as long as it stays within the limit; also says how many
digits are left over. -/
def extendSignificand (significand : Nat) : List Char → Nat × Nat
  | [] => (significand, 0)
  | c :: rest =>
      let extended := 10 * significand + digitValue c
      if significandLimit < extended then (significand, rest.length + 1)
      else extendSignificand extended rest

/-- `x * 10 ^ exponent` in double precision, one factor at a time: the factor itself when it is
at most `10 ^ 308`, otherwise `10 ^ 308` as often as it takes. Nothing when the result is out of
range. -/
def scaleByTen (x : Float) (exponent : Int) : Nat → Option Float
  | 0 => some x
  | rounds + 1 =>
      if exponent.natAbs ≤ 308 then
        let factor := Float.ofScientific 1 false exponent.natAbs
        if 0 ≤ exponent then
          let y := x * factor
          if y.isInf then none else some y
        else some (x / factor)
      else if x == 0 then some x
      else if 0 ≤ exponent then none
      else scaleByTen (x / Float.ofScientific 1 false 308) (exponent + 308) rounds

/-- The report of a number that is not an integer of 64 bits. -/
def foundDecimal (negative : Bool) (significand : Nat) (exponent : Int) : Except Fault Found :=
  match scaleByTen significand.toUInt64.toFloat exponent 4 with
  | none => .error .malformed
  | some x => .ok (.decimal (Decimal.text numberLayout (if negative then -x else x)))

/-- The report of a number without point and exponent. A negative zero is no integer. -/
def foundInteger (negative : Bool) (significand : Nat) : Except Fault Found :=
  if !negative then .ok (.integer significand)
  else if 1 ≤ significand && significand ≤ Nat.pow 2 63 then .ok (.integer (-significand))
  else .ok (.decimal (Decimal.text numberLayout (-significand.toUInt64.toFloat)))

/-- What follows the letter of an exponent. An exponent beyond 32 bits leaves zero or nothing. -/
def foundExponent (negative : Bool) (significand : Nat) (start : Int) (s : List Char) :
    Except Fault Found :=
  let (down, s) := match s with
    | '+' :: rest => (false, rest)
    | '-' :: rest => (true, rest)
    | _ => (false, s)
  match s with
  | [] => .error .endOfText
  | c :: _ =>
      if !c.isDigit then .error .malformed
      else
        let exponent := (s.takeWhile Char.isDigit).foldl (fun n d => 10 * n + digitValue d) 0
        if Nat.pow 2 31 ≤ exponent then
          if significand ≠ 0 && !down then .error .malformed
          else foundDecimal negative 0 0
        else foundDecimal negative significand (if down then start - exponent else start + exponent)

/-- What follows the point of a number. -/
def foundFraction (negative : Bool) (significand left : Nat) (s : List Char) :
    Except Fault Found :=
  let digits := s.takeWhile Char.isDigit
  let rest := s.dropWhile Char.isDigit
  match digits, rest with
  | [], [] => .error .endOfText
  | [], _ => .error .malformed
  | _, _ =>
      let (extended, spare) := extendSignificand significand digits
      let exponent : Int := left - (digits.length - spare : Nat)
      match rest with
      | 'e' :: tail | 'E' :: tail => foundExponent negative extended exponent tail
      | _ => foundDecimal negative extended exponent

/-- The report of a misplaced number, given what follows its sign. -/
def foundNumber (negative : Bool) (s : List Char) : Except Fault Found :=
  let digits := s.takeWhile Char.isDigit
  let rest := s.dropWhile Char.isDigit
  match digits with
  | [] => .error (if s.isEmpty then .endOfText else .malformed)
  | '0' :: _ :: _ => .error .malformed
  | _ =>
      let (significand, left) := extendSignificand 0 digits
      match rest with
      | '.' :: tail => foundFraction negative significand left tail
      | 'e' :: tail | 'E' :: tail => foundExponent negative significand left tail
      | _ =>
          if left = 0 then foundInteger negative significand
          else foundDecimal negative significand left

end MockForge.Json

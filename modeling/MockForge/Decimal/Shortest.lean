/-!
# Shortest decimals

The decimal text of a binary number: of all decimals that read back as the number, those with the
fewest digits, and of those the nearest. A binary number owns an interval of reals, the ones that
round to it; on the grid of the `n`-digit decimals only the two neighbours of the number have to
be looked at, since if any point of the grid lies in the interval, one of the two does.
-/

namespace MockForge.Decimal

/-- The decimal number `digits * 10 ^ exponent`. -/
structure Scaled where
  digits : Nat
  exponent : Int
  deriving DecidableEq, Repr

/-- A positive number and the interval of the numbers that round to it, as fractions over one
denominator. -/
structure Interval where
  value : Nat
  lower : Nat
  upper : Nat
  denominator : Nat
  /-- Whether the two ends round to the number as well. -/
  closed : Bool
  deriving DecidableEq, Repr

/-- The interval of the finite double with these bits, sign apart. A power of two has a nearer
neighbour below than above; ties go to even, so an even significand owns both ends. -/
def Interval.ofBits (bits : Nat) : Interval :=
  let fraction := bits % Nat.pow 2 52
  let field := bits / Nat.pow 2 52 % Nat.pow 2 11
  let significand := if field = 0 then fraction else Nat.pow 2 52 + fraction
  let power : Int := (if field = 0 then 1 else field : Nat) - 1077
  let below := if fraction = 0 && 1 < field then 1 else 2
  let up := Nat.pow 2 power.toNat
  { value := 4 * significand * up
    lower := (4 * significand - below) * up
    upper := (4 * significand + 2) * up
    denominator := Nat.pow 2 (-power).toNat
    closed := significand % 2 = 0 }

/-- How many decimal digits a number has. -/
def digitCount (n : Nat) : Nat := (Nat.toDigits 10 n).length

/-- The exponent of the first digit: the `k` with `10 ^ k ≤ value < 10 ^ (k + 1)`. -/
def Interval.magnitude (i : Interval) : Int :=
  if i.denominator ≤ i.value then (digitCount (i.value / i.denominator) : Int) - 1
  else
    let j := digitCount (i.denominator / i.value) - 1
    if i.denominator ≤ i.value * Nat.pow 10 j then -j else -(j + 1)

/-- Whether `digits * 10 ^ exponent` rounds to the number. -/
def Interval.holds (i : Interval) (d : Scaled) : Bool :=
  let point := d.digits * Nat.pow 10 d.exponent.toNat * i.denominator
  let scale := Nat.pow 10 (-d.exponent).toNat
  if i.closed then i.lower * scale ≤ point && point ≤ i.upper * scale
  else i.lower * scale < point && point < i.upper * scale

/-- The nearest decimal on the grid of step `10 ^ exponent` that rounds to the number, if one
does; halfway between two, the even one. -/
def Interval.onGrid? (i : Interval) (exponent : Int) : Option Scaled :=
  let step := i.denominator * Nat.pow 10 exponent.toNat
  let value := i.value * Nat.pow 10 (-exponent).toNat
  let floor := value / step
  let down : Scaled := ⟨floor, exponent⟩
  let up : Scaled := ⟨floor + 1, exponent⟩
  let downIsNearer :=
    2 * value < (2 * floor + 1) * step || (2 * value = (2 * floor + 1) * step && floor % 2 = 0)
  match i.holds down, i.holds up with
  | true, true => some (if downIsNearer then down else up)
  | true, false => some down
  | false, true => some up
  | false, false => none

/-- The first grid that has a decimal for the number, trying ever more digits. -/
def Interval.search (i : Interval) (exponent : Int) : Nat → Scaled
  | 0 =>
      ⟨i.value * Nat.pow 10 (-exponent).toNat / (i.denominator * Nat.pow 10 exponent.toNat),
        exponent⟩
  | grids + 1 => (i.onGrid? exponent).getD (i.search (exponent - 1) grids)

/-- The shortest decimal that reads back as the number. The first grid holds the next power of ten
alone; seventeen digits always suffice for a double. -/
def Interval.shortest (i : Interval) : Scaled := i.search (i.magnitude + 1) 18

/-- Which numbers are written without an exponent, by the exponent of their first digit. -/
structure Layout where
  positional : Int → Bool

/-- The characters of `digits` with a point after the first `whole` of them. -/
private def pointed (digits : List Char) (whole : Int) : List Char :=
  if whole ≤ 0 then '0' :: '.' :: (List.replicate (-whole).toNat '0' ++ digits)
  else if (digits.length : Int) ≤ whole then
    digits ++ List.replicate (whole - digits.length).toNat '0' ++ ['.', '0']
  else digits.take whole.toNat ++ '.' :: digits.drop whole.toNat

/-- A decimal exponent: its sign, then at least two digits. -/
private def exponentText (e : Int) : List Char :=
  let digits := Nat.toDigits 10 e.natAbs
  (if e < 0 then '-' else '+') :: (List.replicate (2 - digits.length) '0' ++ digits)

/-- A decimal number in the given layout. Positional numbers keep at least one digit after the
point; with an exponent, the point is left out after a single digit. -/
def Scaled.text (layout : Layout) (d : Scaled) : List Char :=
  let digits := Nat.toDigits 10 d.digits
  let first := d.exponent + digits.length - 1
  if layout.positional first then pointed digits (first + 1)
  else
    let rest := digits.drop 1
    digits.take 1 ++ (if rest.isEmpty then [] else '.' :: rest) ++ 'e' :: exponentText first

/-- The text of a double in the given layout. -/
def text (layout : Layout) (x : Float) : String :=
  let bits := x.toBits.toNat
  let magnitude := bits % Nat.pow 2 63
  if x.isNaN then "NaN"
  else
    let sign := if bits < Nat.pow 2 63 then "" else "-"
    if x.isInf then sign ++ "inf"
    else if magnitude = 0 then sign ++ "0.0"
    else sign ++ String.ofList ((Interval.ofBits magnitude).shortest.text layout)

end MockForge.Decimal

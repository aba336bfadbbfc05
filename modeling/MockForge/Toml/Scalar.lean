import MockForge.Toml.Lexeme

/-!
# Numbers, booleans, dates and times

A value that is neither quoted nor bracketed is one token, and each form of value is decided on the
whole token. Only a date and a time may be two tokens with a single space between them.
-/

namespace MockForge.Toml

/-! ## Whole numbers -/

/-- The value of a digit below a base. -/
def digit? (base : Nat) (c : Char) : Option Nat := (hexValue? c).filter (· < base)

/-- Goes on with a number whose digits so far are worth `n`. A single underscore may stand between
two digits. -/
def moreDigits? (base n : Nat) : List Char → Option Nat
  | [] => some n
  | '_' :: c :: rest => (digit? base c).bind fun d => moreDigits? base (base * n + d) rest
  | c :: rest => (digit? base c).bind fun d => moreDigits? base (base * n + d) rest

/-- The number that one or more digits spell. -/
def number? (base : Nat) : List Char → Option Nat
  | [] => none
  | c :: rest => (digit? base c).bind fun d => moreDigits? base d rest

/-- A decimal number without needless zeros in front. -/
def plainNumber? : List Char → Option Nat
  | ['0'] => some 0
  | '0' :: _ => none
  | s => number? 10 s

/-- Parts a sign from what follows it: whether it is a minus, and the rest. -/
def signed : List Char → Bool × List Char
  | '-' :: rest => (true, rest)
  | '+' :: rest => (false, rest)
  | s => (false, s)

/-- An integer in one of the four bases. Only the decimal ones may have a sign. -/
def integer? : List Char → Option Int
  | '0' :: 'x' :: rest => (number? 16 rest).map Int.ofNat
  | '0' :: 'o' :: rest => (number? 8 rest).map Int.ofNat
  | '0' :: 'b' :: rest => (number? 2 rest).map Int.ofNat
  | s => (plainNumber? (signed s).2).map fun n => if (signed s).1 then -Int.ofNat n else Int.ofNat n

/-! ## Decimal numbers -/

/-- Whether a character starts the exponent of a decimal number. -/
def isExponentMark (c : Char) : Bool := c = 'e' || c = 'E'

/-- The exponent that stands at the end of a decimal number. -/
def exponent? : List Char → Option Int
  | [] => some 0
  | _ :: rest =>
      (number? 10 (signed rest).2).map fun n =>
        if (signed rest).1 then -Int.ofNat n else Int.ofNat n

/-- A decimal number without its sign, given its whole part and what follows it, which starts with
the point or with the exponent. -/
def fractional? (negative : Bool) (whole : Nat) : List Char → Option DecimalNumber
  | [] => none
  | '.' :: rest =>
      let fraction := rest.takeWhile fun c => !isExponentMark c
      let places := fraction.countP Char.isDigit
      (number? 10 fraction).bind fun n =>
        (exponent? (rest.dropWhile fun c => !isExponentMark c)).map fun e =>
          .finite negative (whole * Nat.pow 10 places + n) (e - Int.ofNat places)
  | rest => (exponent? rest).map fun e => .finite negative whole e

/-- A decimal number: with a fraction, with an exponent, or one of the words for no finite
number. -/
def decimal? (s : List Char) : Option DecimalNumber :=
  match signed s with
  | (negative, ['i', 'n', 'f']) => some (.infinity negative)
  | (_, ['n', 'a', 'n']) => some .notANumber
  | (negative, rest) =>
      let isWhole := fun c => !(c = '.' || isExponentMark c)
      (plainNumber? (rest.takeWhile isWhole)).bind fun whole =>
        fractional? negative whole (rest.dropWhile isWhole)

/-! ## Dates and times -/

/-- A number of exactly `count` digits from a range, and what follows it. -/
def numberField? (count low high : Nat) (s : List Char) : Option (Nat × List Char) :=
  let digits := s.take count
  if digits.length = count && digits.all Char.isDigit then
    (number? 10 digits).bind fun n =>
      if low ≤ n && n ≤ high then some (n, s.drop count) else none
  else none

/-- What follows a given character, if the text starts with it. -/
def after? (c : Char) : List Char → Option (List Char)
  | d :: rest => if d = c then some rest else none
  | [] => none

/-- A year is a leap year when 4 divides it, save that of the years that 100 divides only those are
that 400 divides. -/
def isLeapYear (year : Nat) : Bool := year % 4 = 0 && (year % 100 ≠ 0 || year % 400 = 0)

/-- The number of days in a month. -/
def daysInMonth (year month : Nat) : Nat :=
  if month = 2 then if isLeapYear year then 29 else 28
  else if month = 4 || month = 6 || month = 9 || month = 11 then 30
  else 31

/-- What follows the date at the front of a text. -/
def afterDate? (s : List Char) : Option (List Char) := do
  let (year, s) ← numberField? 4 0 9999 s
  let s ← after? '-' s
  let (month, s) ← numberField? 2 1 12 s
  let s ← after? '-' s
  let (_, s) ← numberField? 2 1 (daysInMonth year month) s
  some s

/-- What follows a fraction of a second, which may be left out. -/
def afterFraction? : List Char → Option (List Char)
  | '.' :: rest =>
      if (rest.takeWhile Char.isDigit).isEmpty then none else some (rest.dropWhile Char.isDigit)
  | s => some s

/-- What follows the seconds of a time, which may be left out. -/
def afterSeconds? : List Char → Option (List Char)
  | ':' :: rest => (numberField? 2 0 60 rest).bind fun p => afterFraction? p.2
  | s => some s

/-- What follows the time at the front of a text. -/
def afterTime? (s : List Char) : Option (List Char) := do
  let (_, s) ← numberField? 2 0 23 s
  let s ← after? ':' s
  let (_, s) ← numberField? 2 0 59 s
  afterSeconds? s

/-- Whether a text is an offset from universal time, or nothing. -/
def isOffset : List Char → Bool
  | [] => true
  | ['Z'] | ['z'] => true
  | sign :: rest =>
      (sign = '+' || sign = '-') && (do
        let (_, s) ← numberField? 2 0 23 rest
        let s ← after? ':' s
        let (_, s) ← numberField? 2 0 59 s
        some s) = some []

/-- Whether a character may stand between a date and its time. -/
def isTimeMark (c : Char) : Bool := c = 'T' || c = 't' || c = ' '

/-- Whether a text is a date, a time, or a date with its time. -/
def isMoment (s : List Char) : Bool :=
  match afterDate? s with
  | none => afterTime? s = some []
  | some [] => true
  | some (mark :: rest) => isTimeMark mark && (afterTime? rest).any isOffset

/-! ## Tokens -/

/-- The characters of a value that is neither quoted nor bracketed. -/
def isTokenChar (c : Char) : Bool :=
  c.isAlphanum || c = '+' || c = '-' || c = '_' || c = '.' || c = ':'

/-- The token at the front of a text, and what follows it. A date takes along the time that
follows it after a single space. -/
def token (s : List Char) : List Char × List Char :=
  let first := s.takeWhile isTokenChar
  let rest := s.dropWhile isTokenChar
  match afterDate? first, rest with
  | some [], ' ' :: c :: tail =>
      if c.isDigit then
        (first ++ ' ' :: (c :: tail).takeWhile isTokenChar, (c :: tail).dropWhile isTokenChar)
      else (first, rest)
  | _, _ => (first, rest)

/-- The value that a token spells. -/
def scalar? (s : List Char) : Option Value :=
  if s = "true".toList then some (.boolean true)
  else if s = "false".toList then some (.boolean false)
  else
    match integer? s with
    | some n => some (.integer n)
    | none =>
        match decimal? s with
        | some x => some (.decimal x)
        | none => if isMoment s then some .moment else none

theorem token_length (s : List Char) : (token s).1.length + (token s).2.length = s.length := by
  have hs := congrArg List.length (List.takeWhile_append_dropWhile (p := isTokenChar) (l := s))
  rw [List.length_append] at hs
  unfold token
  simp only
  split
  · next c tail _ hr =>
    split
    · have ht := congrArg List.length
        (List.takeWhile_append_dropWhile (p := isTokenChar) (l := c :: tail))
      rw [hr] at hs
      simp only [List.length_append, List.length_cons] at hs ht ⊢
      omega
    · exact hs
  · exact hs

theorem scalar?_nil : scalar? [] = none := by decide

/-- Reads a value that is neither quoted nor bracketed. -/
def scalar (s : List Char) : Except Malformed (Value × List Char) :=
  match scalar? (token s).1 with
  | some value => .ok (value, (token s).2)
  | none => .error .malformed

theorem scalar_shortens {s r : List Char} {value : Value} (h : scalar s = .ok (value, r)) :
    r.length < s.length := by
  have hs := token_length s
  unfold scalar at h
  split at h
  · next ht =>
    simp only [Except.ok.injEq, Prod.mk.injEq] at h
    have : 0 < (token s).1.length := by
      rw [List.length_pos_iff]
      intro hn
      rw [hn, scalar?_nil] at ht
      simp at ht
    rw [← h.2]
    omega
  · simp at h

end MockForge.Toml

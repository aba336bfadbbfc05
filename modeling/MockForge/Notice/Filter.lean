import MockForge.Notice
import MockForge.Text.Blank

/-!
# Filtering notices

A filter is a list of directives, each of which admits notices up to a level, from one part of the
program or from all. The directive that names the longest part decides, and of equal ones the last.
-/

namespace MockForge

/-- A directive: the part of the program that it is about, where the empty one means all, and the
amount of detail that it admits. -/
structure Directive where
  target : String := ""
  detail : Nat
  deriving DecidableEq, Repr

/-- A filter of notices. -/
structure Filter where
  directives : List Directive
  deriving DecidableEq, Repr

namespace Filter

/-- The filter that admits some detail from all parts. -/
def upTo (level : Level) : Filter := ⟨[⟨"", level.detail⟩]⟩

/-- The directive that decides about a part of the program. -/
def decisive? (filter : Filter) (origin : String) : Option Directive :=
  (filter.directives.filter fun d => d.target.toList.isPrefixOf origin.toList).foldl
    (fun best d =>
      match best with
      | some other => if d.target.length < other.target.length then best else some d
      | none => some d) none

/-- Whether a filter admits a notice. -/
def admits (filter : Filter) (notice : Notice) : Bool :=
  (filter.decisive? notice.origin).any fun d => notice.level.detail ≤ d.detail

/-! ## Reading a filter -/

/-- The words for amounts of detail, from none upward. -/
def detailWords : List String := ["off", "error", "warn", "info", "debug", "trace"]

/-- The number that a text spells, which may have a plus sign. -/
def number? (s : List Char) : Option Nat :=
  let digits := match s with
    | '+' :: rest => rest
    | s => s
  if digits.isEmpty || !digits.all Char.isDigit then none
  else some (digits.foldl (fun n c => 10 * n + (c.toNat - '0'.toNat)) 0)

/-- The amount of detail that a text names, as a number or as a word in letters of either case. -/
def detail? (s : String) : Option Nat :=
  match (number? s.toList).filter (· < detailWords.length) with
  | some n => some n
  | none => detailWords.idxOf? (s.map Char.toLower)

/-- Whether a directive may start with a character. -/
def startsDirective (c : Char) : Bool :=
  c = '-' || c = ':' || c = '_' || c.isAlphanum || 0x80 ≤ c.toNat

/-- The directive that a text spells: an amount of detail, a part of the program, or both with an
equals sign between them. Without an amount, all detail is admitted. -/
def directive? (s : String) : Option Directive :=
  match Text.trimChars s.toList with
  | [] => some { detail := Level.trace.detail }
  | c :: _ =>
      if !startsDirective c then none
      else
        match s.toList.dropWhile (· ≠ '=') with
        | [] =>
            match detail? s with
            | some detail => some { detail }
            | none => some { target := s, detail := Level.trace.detail }
        | _ :: level =>
            if s.toList.head?.any Text.isBlankChar then none
            else
              let target := String.ofList (s.toList.takeWhile (· ≠ '='))
              if level.isEmpty then some { target, detail := Level.trace.detail }
              else (detail? (String.ofList level)).map fun detail => { target, detail }

/-- The filter that a text spells: directives with commas between them. An empty text admits
errors alone. -/
def ofText? (s : String) : Option Filter :=
  match (s.splitOn ",").filter (· ≠ "") with
  | [] => some (upTo .error)
  | parts => (parts.mapM directive?).map Filter.mk

/-- The filter of a program: all that helps to find mistakes when asked to be verbose, otherwise
what the given text says, and warnings where it says nothing that can be understood. -/
def choose (verbose : Bool) (text : Option String) : Filter :=
  if verbose then upTo .debug else (text.bind ofText?).getD (upTo .warning)

end Filter

/-! ## Lines -/

/-- A character of a message in a line of the log. Characters that command a terminal are written
as their numbers. -/
def Notice.safeChar (c : Char) : List Char :=
  if c = '\x1b' then "\\x1b".toList
  else if c = '\x07' then "\\x07".toList
  else if c = '\x08' then "\\x08".toList
  else if c = '\x0c' then "\\x0c".toList
  else if c = '\x7f' then "\\x7f".toList
  else if 0x80 ≤ c.toNat && c.toNat ≤ 0x9f then
    ['\\', 'u', '{'] ++ Nat.toDigits 16 c.toNat ++ ['}']
  else [c]

/-- A notice as a line of the log. -/
def Notice.line (notice : Notice) : String :=
  notice.level.name ++ " " ++ notice.origin ++ ": "
    ++ String.ofList (notice.message.toList.flatMap safeChar)
    ++ String.join (notice.fields.map fun (name, value) => " " ++ name ++ "=" ++ value) ++ "\n"

end MockForge

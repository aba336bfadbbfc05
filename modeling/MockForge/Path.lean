/-!
# Paths

A path is kept as it is written. Its components are what it means: single dots and repeated or
trailing slashes between them do not count, save for a dot that the path starts with.
-/

namespace MockForge

/-- A path, as it is written. -/
structure Path where
  spelling : String
  deriving DecidableEq, Repr

namespace Path

/-! ## Pieces -/

/-- The pieces of a text between its slashes. -/
def pieces : List Char → List (List Char)
  | [] => [[]]
  | c :: rest =>
      if c = '/' then [] :: pieces rest
      else
        match pieces rest with
        | [] => [[c]]
        | piece :: more => (c :: piece) :: more

theorem pieces_ne_nil (s : List Char) : pieces s ≠ [] := by
  unfold pieces
  split
  · simp
  · split
    · simp
    · split <;> simp

/-- The text with these pieces. -/
def joined : List (List Char) → List Char
  | [] => []
  | [piece] => piece
  | piece :: more => piece ++ '/' :: joined more

/-- Splitting a text at its slashes loses nothing. -/
theorem joined_pieces (s : List Char) : joined (pieces s) = s := by
  induction s with
  | nil => rfl
  | cons c rest ih =>
      unfold pieces
      split
      · next hc =>
        subst hc
        cases hp : pieces rest with
        | nil => exact absurd hp (pieces_ne_nil rest)
        | cons piece more =>
            rw [hp] at ih
            simp [joined, ih]
      · cases hp : pieces rest with
        | nil => exact absurd hp (pieces_ne_nil rest)
        | cons piece more =>
            rw [hp] at ih
            cases more with
            | nil => simpa [joined] using ih
            | cons next more => simpa [joined] using ih

/-- Whether a piece says nothing: it is empty or a single dot. -/
def isIdle (piece : List Char) : Bool := piece = [] || piece = ['.']

/-! ## Components -/

/-- A component of a path. -/
inductive Component where
  | root
  /-- A dot at the front of the path. -/
  | here
  | up
  | name (text : String)
  deriving DecidableEq, Repr

/-- The component that a piece stands for, if it says anything. -/
def Component.ofPiece? (piece : List Char) : Option Component :=
  if isIdle piece then none
  else if piece = ['.', '.'] then some .up
  else some (.name (String.ofList piece))

/-- What a path starts with. -/
inductive Start where
  | plain
  | here
  | root
  deriving DecidableEq, Repr

/-- The component that a path starts with on account of its first piece. -/
def Start.component? : Start → Option Component
  | .plain => none
  | .here => some .here
  | .root => some .root

/-- What the path starts with, and the pieces after that. -/
def parts (p : Path) : Start × List (List Char) :=
  match pieces p.spelling.toList with
  | [] :: piece :: more => (.root, piece :: more)
  | ['.'] :: more => (.here, more)
  | all => (.plain, all)

/-- The components of a path. -/
def components (p : Path) : List Component :=
  p.parts.1.component?.toList ++ p.parts.2.filterMap Component.ofPiece?

/-- Whether two paths have the same components. -/
def same (p q : Path) : Bool := p.components = q.components

/-- The name at the end of a path. -/
def fileName? (p : Path) : Option String :=
  match p.components.getLast? with
  | some (.name text) => some text
  | _ => none

/-! ## The directories above a path -/

/-- The path that starts like this and goes on with these pieces. -/
def assemble (start : Start) (body : List (List Char)) : Path :=
  match start, body with
  | .plain, body => ⟨String.ofList (joined body)⟩
  | .here, [] => ⟨"."⟩
  | .here, body => ⟨String.ofList ('.' :: '/' :: joined body)⟩
  | .root, body => ⟨String.ofList ('/' :: joined body)⟩

/-- A path, given by its pieces from the last to the first, without its idle end, and then each
directory above it, the nearest first. -/
def lineage (start : Start) : List (List Char) → List Path
  | [] =>
      match start with
      | .plain => [⟨""⟩]
      | .here => [⟨"."⟩, ⟨""⟩]
      | .root => [⟨"/"⟩]
  | piece :: earlier =>
      if isIdle piece then lineage start earlier
      else assemble start (piece :: earlier).reverse :: lineage start earlier

/-- The directories above a path, the nearest first. The empty path, which stands for the working
directory, is above every relative path. -/
def parents (p : Path) : List Path := (lineage p.parts.1 p.parts.2.reverse).tail

/-! ## Longer paths and other names -/

/-- The path below `p` that is written `q`. A slash is put between them where `p` does not end with
one; a path that starts with a slash takes the place of `p`. -/
def join (p q : Path) : Path :=
  if q.spelling.toList.head? = some '/' then q
  else if p.spelling.isEmpty || p.spelling.toList.getLast? = some '/' then
    ⟨p.spelling ++ q.spelling⟩
  else ⟨p.spelling ++ "/" ++ q.spelling⟩

/-- A name up to its last dot, and what follows the dot. A dot at the front does not count. -/
def stem (name : List Char) : List Char × Option (List Char) :=
  match name.reverse.dropWhile (· ≠ '.') with
  | _ :: c :: before => ((c :: before).reverse, some (name.reverse.takeWhile (· ≠ '.')).reverse)
  | _ => (name, none)

/-- The name at the end of a path with another extension. There is none when the path has no name
at its end, nor when the name at its very end is two dots and an extension: without the extension
that leads up and is no name. -/
def renamed? (extension : String) (p : Path) : Option String :=
  match p.fileName? with
  | none => none
  | some name =>
      match stem name.toList with
      | (['.'], some _) =>
          if (pieces p.spelling.toList).getLast? = some name.toList then none
          else some (".." ++ extension)
      | (front, _) => some (String.ofList front ++ "." ++ extension)

end Path

end MockForge

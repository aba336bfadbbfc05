import MockForge.FileSystem.Basic
import MockForge.FileSystem.Fault
import MockForge.Path

/-!
# Looking up paths

A path is followed piece by piece from the working directory. Every piece, an idle one too, needs a
directory to stand in; two dots lead to the directory around it, and stay in the working directory.
-/

namespace MockForge

namespace FileSystem

/-- The greatest size of a name, in bytes. -/
def maxNameSize : Nat := 255

/-- The greatest size of a path, in bytes. -/
def maxPathSize : Nat := 4095

/-- Fails unless there is a directory at a location. -/
def requireDirectory (fs : FileSystem) (location : Location) : Except FileFault Unit :=
  match fs.get? location with
  | some .directory => .ok ()
  | some (.file _) => .error .notDirectory
  | none => .error .notFound

/-- The location that a name has in a directory. -/
def nameIn (fs : FileSystem) (location : Location) (piece : List Char) :
    Except FileFault Location := do
  fs.requireDirectory location
  let name := String.ofList piece
  if maxNameSize < name.utf8ByteSize then .error .nameTooLong else .ok (name :: location)

/-- Goes on from a location by one piece. -/
def step (fs : FileSystem) (location : Location) (piece : List Char) :
    Except FileFault Location :=
  match Path.Component.ofPiece? piece with
  | none => (fs.requireDirectory location).map fun _ => location
  | some .up => (fs.requireDirectory location).map fun _ => location.tail
  | some _ => fs.nameIn location piece

/-- Goes on from a location by some pieces. -/
def walk (fs : FileSystem) (location : Location) (pieces : List (List Char)) :
    Except FileFault Location :=
  pieces.foldlM fs.step location

/-- The pieces of a path that can be looked up. -/
def admitted (p : Path) : Except FileFault (List (List Char)) :=
  if p.spelling.toList.contains '\x00' then .error .nulInPath
  else if p.spelling.isEmpty then .error .notFound
  else if maxPathSize < p.spelling.utf8ByteSize then .error .nameTooLong
  else .ok (Path.pieces p.spelling.toList)

/-- The location that a path names, whether something is there or not. -/
def locate (fs : FileSystem) (p : Path) : Except FileFault Location := do
  fs.walk [] (← admitted p)

/-- What a path names. -/
def find (fs : FileSystem) (p : Path) : Except FileFault Entry := do
  match fs.get? (← fs.locate p) with
  | some entry => .ok entry
  | none => .error .notFound

/-- Whether a path names a directory. -/
def isDirectory (fs : FileSystem) (p : Path) : Bool :=
  match fs.find p with
  | .ok .directory => true
  | _ => false

/-- The contents of the file that a path names. -/
def contents (fs : FileSystem) (p : Path) : Except FileFault ByteArray := do
  match ← fs.find p with
  | .file contents => .ok contents
  | .directory => .error .isDirectory

/-- The text of the file that a path names. -/
def readText (fs : FileSystem) (p : Path) : Except FileFault String := do
  match String.fromUTF8? (← fs.contents p) with
  | some text => .ok text
  | none => .error .notText

/-- The location of the regular file that a path names, if it names one. -/
def file? (fs : FileSystem) (p : Path) : Option (Location × ByteArray) :=
  match fs.locate p with
  | .error _ => none
  | .ok location =>
      match fs.get? location with
      | some (.file contents) => some (location, contents)
      | _ => none

/-- The pieces of a path from the last to the first without empty ones at its end, and whether
there were any. -/
def target (p : Path) : Except FileFault (List (List Char) × Bool) := do
  let pieces ← admitted p
  let named := pieces.reverse.dropWhile (· = [])
  return (named, named.length < pieces.length)

/-- The location that the last name of a path stands for, and whether slashes follow the name. A
path that does not end in a name is refused with a fault of its own. -/
def aim (fs : FileSystem) (p : Path) (unnamed : FileFault) :
    Except FileFault (Location × Bool) := do
  match ← target p with
  | ([], _) => .error unnamed
  | (last :: earlier, slashed) =>
      let around ← fs.walk [] earlier.reverse
      if Path.isIdle last || last = ['.', '.'] then
        fs.requireDirectory around
        .error unnamed
      else
        let location ← fs.nameIn around last
        return (location, slashed)

/-- The location at which a path makes a new entry. -/
def vacancy (fs : FileSystem) (p : Path) : Except FileFault Location := do
  let (location, _) ← fs.aim p .alreadyExists
  if (fs.get? location).isSome then .error .alreadyExists else .ok location

/-- The location to which a regular file moves when it is given a path. -/
def destination (fs : FileSystem) (p : Path) : Except FileFault Location := do
  let (location, slashed) ← fs.aim p .busy
  if slashed then .error .notDirectory
  else if fs.get? location = some .directory then .error .isDirectory
  else .ok location

/-! ## Locations in general -/

/-- Where a piece leads from a location, as long as nothing stands in the way. -/
def heading (location : Location) (piece : List Char) : Location :=
  match Path.Component.ofPiece? piece with
  | none => location
  | some .up => location.tail
  | some _ => String.ofList piece :: location

/-- The locations that pieces pass through from a location on, the last one included. -/
def passed (location : Location) : List (List Char) → List Location
  | [] => [location]
  | piece :: rest => location :: passed (heading location piece) rest

/-- The locations that a path passes through. -/
def passages (p : Path) : List Location := passed [] (Path.pieces p.spelling.toList)

/-- The places of all entries below the working directory. -/
def locations (fs : FileSystem) : List Location := fs.entries.map (·.1)

end FileSystem

end MockForge

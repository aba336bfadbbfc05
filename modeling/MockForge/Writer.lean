import MockForge.Fault
import MockForge.FileSystem.Task
import MockForge.Mock
import MockForge.Text.Blank

/-!
# Writing mocks

A mock is written as a whole or not at all. First every path is checked, with nothing touched. Then
each file is staged: written to a temporary file in the directory where it goes. Only when all are
staged are they moved into place, one after the other, each after a backup of the file that it
replaces. When a move fails, the moves before it are undone in reverse order. The system may refuse
any of these steps, but neither an undoing nor the removal of a temporary file.
-/

namespace MockForge

/-- Picks names for temporary files. -/
structure Namer where
  pick : List String → String
  /-- A picked name is none of those that are taken. -/
  pick_fresh : ∀ taken, pick taken ∉ taken

namespace Namer

/-- The `n`-th name for temporary files. -/
def nth (n : Nat) : String := ".staged" ++ String.ofList (List.replicate n '~')

theorem nth_inj {m n : Nat} (h : nth m = nth n) : m = n := by
  have := congrArg (fun s : String => s.toList.length) ((String.append_right_inj _).1 h)
  simpa using this

/-- The first name from the `n`-th on that is not taken. -/
def firstFrom (n : Nat) (taken : List String) : String :=
  if h : nth n ∈ taken then firstFrom (n + 1) (taken.erase (nth n)) else nth n
termination_by taken.length
decreasing_by
  have := List.length_erase_of_mem h
  have := List.length_pos_of_mem h
  omega

theorem firstFrom_fresh (n : Nat) (taken : List String) :
    ∃ m, n ≤ m ∧ firstFrom n taken = nth m ∧ nth m ∉ taken := by
  fun_induction firstFrom n taken with
  | case1 n taken _ ih =>
      obtain ⟨m, hm, he, hf⟩ := ih
      refine ⟨m, by omega, he, fun hmem => hf ?_⟩
      refine (List.mem_erase_of_ne fun hne => ?_).2 hmem
      have := nth_inj hne
      omega
  | case2 n taken hn => exact ⟨n, Nat.le_refl n, rfl, hn⟩

/-- Takes the first name that is free. -/
def counting : Namer where
  pick := firstFrom 0
  pick_fresh taken := by
    obtain ⟨m, _, he, hf⟩ := firstFrom_fresh 0 taken
    rw [he]
    exact hf

end Namer

/-- What a writer has from the system it works on: names for temporary files, and changes of the
file system that are refused. Making a temporary file or a backup whose own path is too long is
among them, since `FileSystem.maxPathSize` is not applied to it. -/
structure Host where
  namer : Namer
  refusal : FileSystem.Refusal := .never

/-- A host that refuses nothing. -/
def Host.counting : Host := { namer := .counting }

/-- What writes mocks below a directory. -/
structure Writer where
  base : Path
  host : Host

namespace Writer

/-! ## Checking paths -/

/-- Whether a path stays below where it starts: it consists of names and single dots. -/
def isConfined (path : Path) : Bool :=
  path.components.all fun
    | .name _ | .here => true
    | .root | .up => false

/-- The path of a file below the base. -/
def resolve (base : Path) (path : String) : Except WriteFault Path :=
  if Text.isBlank path then .error (.invalidPath path)
  else if isConfined ⟨path⟩ then .ok (base.join ⟨path⟩)
  else .error (.invalidComponent path)

/-- The paths of all files below the base, given those of the files before. No two may be the
same. -/
def targets (base : Path) (before : List Path) : List MockFile → Except WriteFault (List Path)
  | [] => .ok before
  | file :: rest =>
      match resolve base file.path with
      | .error fault => .error fault
      | .ok target =>
          if before.any target.same then .error (.duplicatePath file.path)
          else targets base (before ++ [target]) rest

/-! ## Temporary files -/

/-- The directory that a file lies in, and those above it. -/
def surroundings (target : Path) : List Path :=
  match target.parents with
  | [] => [⟨"."⟩]
  | parents => parents

/-- The directory that a file lies in. -/
def parent (target : Path) : Path := (surroundings target).headD ⟨"."⟩

/-- The names that temporary files in a directory must not have: those of what is there, and those
that targets pass through. -/
def takenNames (fs : FileSystem) (targets : List Path) (place : Location) : List String :=
  (fs.locations ++ targets.flatMap FileSystem.passages).filterMap fun
    | [] => none
    | name :: around => if around = place then some name else none

/-- Makes a temporary file with given contents in the directory of a target. One that cannot be
filled is removed again; what is blamed for that depends on the name that the file got. -/
def makeTemporary (host : Host) (targets : List Path) (target : Path) (contents : ByteArray)
    (blamed : String → Path) : Task (Except WriteFault Location) := do
  let files ← Task.look
  match files.directory (parent target) with
  | .error fault => return .error (.file (parent target).spelling fault)
  | .ok place =>
      let name := host.namer.pick (takenNames files targets place)
      match ← Task.attempt host.refusal (.createFile (name :: place)) with
      | .error fault => return .error (.file (parent target).spelling fault)
      | .ok () =>
          match ← Task.attempt host.refusal (.fill (name :: place) contents) with
          | .error fault =>
              Task.perform (.remove (name :: place))
              return .error (.file (blamed name).spelling fault)
          | .ok () => return .ok (name :: place)

/-- Removes files. -/
def discard : List Location → Task Unit
  | [] => pure ()
  | location :: rest => do
      Task.perform (.remove location)
      discard rest

/-! ## Staging -/

/-- Writes a text to a temporary file in the directory of its target, which is made if it is
missing. -/
def stage (host : Host) (targets : List Path) (target : Path) (text : String) :
    Task (Except WriteFault Location) := do
  match ← FileSystem.makeDirectories host.refusal (surroundings target) with
  | .error fault => return .error (.file (parent target).spelling fault)
  | .ok () =>
      match ← makeTemporary host targets target text.toUTF8 ((parent target).join ⟨·⟩) with
      | .error fault => return .error fault
      | .ok location =>
          Task.note (.staged target.spelling)
          return .ok location

/-- Stages texts for their targets. When one cannot be staged, the temporary files that were made
before it come with the fault. -/
def stageAll (host : Host) (targets : List Path) :
    List (Path × String) → Task (Except (WriteFault × List Location) (List Location))
  | [] => pure (.ok [])
  | (target, text) :: rest => do
      match ← stage host targets target text with
      | .error fault => return .error (fault, [])
      | .ok location =>
          match ← stageAll host targets rest with
          | .error (fault, made) => return .error (fault, location :: made)
          | .ok locations => return .ok (location :: locations)

/-! ## Moving into place -/

/-- Copies the file at a target to a backup beside it, if there is one. -/
def backUp (host : Host) (targets : List Path) (target : Path) :
    Task (Except WriteFault (Option Location)) := do
  match (← Task.look).file? target with
  | none => return .ok none
  | some (_, contents) =>
      match ← makeTemporary host targets target contents fun _ => target with
      | .error fault => return .error fault
      | .ok backup =>
          Task.note (.backedUp target.spelling)
          return .ok (some backup)

/-- Moves a staged file to its target. -/
def move (host : Host) (staged : Location) (target : Path) :
    Task (Except WriteFault Location) := do
  match (← Task.look).destination target with
  | .error fault => return .error (.file target.spelling fault)
  | .ok location =>
      match ← Task.attempt host.refusal (.rename staged location) with
      | .error fault => return .error (.file target.spelling fault)
      | .ok () => return .ok location

/-- Undoes a move: what was replaced comes back, and what was new goes. -/
def undo (location : Location) (backup : Option Location) : Task Unit :=
  match backup with
  | some backup => Task.perform (.rename backup location)
  | none => Task.perform (.remove location)

/-- Moves staged files to their targets and gives the backups of what they replaced. When a move
fails, the moves before it are undone, the last one first; the temporary files that are left then
come with the fault. -/
def placeAll (host : Host) (targets : List Path) :
    List (Location × Path) → Task (Except (WriteFault × List Location) (List Location))
  | [] => pure (.ok [])
  | (staged, target) :: rest => do
      match ← backUp host targets target with
      | .error fault => return .error (fault, staged :: rest.map (·.1))
      | .ok backup =>
          match ← move host staged target with
          | .error fault => return .error (fault, staged :: backup.toList ++ rest.map (·.1))
          | .ok location =>
              match ← placeAll host targets rest with
              | .error failure =>
                  undo location backup
                  return .error failure
              | .ok backups => return .ok (backup.toList ++ backups)

/-! ## The whole -/

/-- Writes the files of a mock and gives their paths. Whatever happens, no temporary file is left
behind. -/
def write (writer : Writer) (mock : Mock) : Task (Except WriteFault (List Path)) := do
  match targets writer.base [] mock.files with
  | .error fault => return .error fault
  | .ok paths =>
      match ← stageAll writer.host paths (paths.zip (mock.files.map MockFile.content)) with
      | .error (fault, made) =>
          discard made
          return .error fault
      | .ok staged =>
          match ← placeAll writer.host paths (staged.zip paths) with
          | .error (fault, left) =>
              discard left
              return .error fault
          | .ok backups =>
              discard backups
              Task.note (.wrote paths.length mock.name.text writer.base.spelling)
              return .ok paths

end Writer

end MockForge

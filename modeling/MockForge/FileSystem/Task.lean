import MockForge.FileSystem.Access
import MockForge.Notice

/-!
# Tasks on file systems

A task works on a file system one operation at a time. Its record holds every operation in order,
so all states in between can be looked at and not only the last one. Main statement: tasks follow
one another as a lawful monad, and the operations on record lead to the file system that is left.
-/

namespace MockForge

/-- What a task did to a file system: its value, the file system it left, the operations that led
there, and what it told. -/
@[ext]
structure Performed (start : FileSystem) (α : Type) where
  value : α
  files : FileSystem
  operations : List FileSystem.Operation
  notices : List Notice
  /-- The operations lead to the file system that is left. -/
  files_eq : files = operations.foldl FileSystem.perform start := by rfl

/-- Why a system refuses an operation on a file system that would admit it: for want of room or of a
permission, or because a device fails. It also refuses to make a temporary file or a backup whose
own path is too long for it: those go by their locations, to which `FileSystem.maxPathSize` is not
applied. Nothing where the operation goes through. -/
abbrev FileSystem.Refusal : Type := FileSystem → FileSystem.Operation → Option FileFault

/-- The refusal of nothing. -/
def FileSystem.Refusal.never : FileSystem.Refusal := fun _ _ => none

/-- Work on a file system. -/
def Task (α : Type) : Type := (start : FileSystem) → Performed start α

namespace Task

variable {α β : Type}

/-- Goes on after a task with its value. -/
def bind (task : Task α) (next : α → Task β) : Task β := fun start =>
  let first := task start
  let rest := next first.value first.files
  { value := rest.value
    files := rest.files
    operations := first.operations ++ rest.operations
    notices := first.notices ++ rest.notices
    files_eq := by rw [List.foldl_append, ← first.files_eq, ← rest.files_eq] }

instance : Monad Task where
  pure a start := { value := a, files := start, operations := [], notices := [] }
  bind := Task.bind

/-- The file system as it is. -/
def look : Task FileSystem := fun start =>
  { value := start, files := start, operations := [], notices := [] }

/-- Performs an operation. -/
def perform (operation : FileSystem.Operation) : Task Unit := fun start =>
  { value := (), files := start.perform operation, operations := [operation], notices := [] }

/-- Tells something. -/
def note (notice : Notice) : Task Unit := fun start =>
  { value := (), files := start, operations := [], notices := [notice] }

/-- Performs an operation, unless it is refused. -/
def attempt (refusal : FileSystem.Refusal) (operation : FileSystem.Operation) :
    Task (Except FileFault Unit) := do
  match refusal (← look) operation with
  | some fault => return .error fault
  | none =>
      perform operation
      return .ok ()

/-! ## What each task does -/

@[simp]
theorem value_pure (a : α) (start : FileSystem) : ((pure a : Task α) start).value = a := rfl

@[simp]
theorem files_pure (a : α) (start : FileSystem) : ((pure a : Task α) start).files = start := rfl

@[simp]
theorem operations_pure (a : α) (start : FileSystem) :
    ((pure a : Task α) start).operations = [] := rfl

@[simp]
theorem notices_pure (a : α) (start : FileSystem) : ((pure a : Task α) start).notices = [] := rfl

@[simp]
theorem value_bind (task : Task α) (next : α → Task β) (start : FileSystem) :
    ((task >>= next) start).value = (next (task start).value (task start).files).value := rfl

@[simp]
theorem files_bind (task : Task α) (next : α → Task β) (start : FileSystem) :
    ((task >>= next) start).files = (next (task start).value (task start).files).files := rfl

@[simp]
theorem operations_bind (task : Task α) (next : α → Task β) (start : FileSystem) :
    ((task >>= next) start).operations =
      (task start).operations ++ (next (task start).value (task start).files).operations := rfl

@[simp]
theorem notices_bind (task : Task α) (next : α → Task β) (start : FileSystem) :
    ((task >>= next) start).notices =
      (task start).notices ++ (next (task start).value (task start).files).notices := rfl

private theorem id_map_task (task : Task α) : id <$> task = task := by
  funext start
  show Task.bind task (fun a => pure a) start = task start
  ext <;> simp [Task.bind]

private theorem pure_bind_task (a : α) (f : α → Task β) : pure a >>= f = f a := by
  funext start
  ext <;> simp

private theorem bind_assoc_task {γ : Type} (task : Task α) (f : α → Task β) (g : β → Task γ) :
    task >>= f >>= g = task >>= fun a => f a >>= g := by
  funext start
  ext <;> simp

instance : LawfulMonad Task :=
  LawfulMonad.mk' _ id_map_task pure_bind_task bind_assoc_task

end Task

/-- The file systems that operations pass through, from the first to the last. -/
def FileSystem.states (files : FileSystem) : List Operation → List FileSystem
  | [] => [files]
  | operation :: rest => files :: (files.perform operation).states rest

/-! ## Making directories -/

namespace FileSystem

/-- Makes a directory where a path says. -/
def makeDirectory (refusal : Refusal) (path : Path) : Task (Except FileFault Unit) := do
  match (← Task.look).vacancy path with
  | .error fault => return .error fault
  | .ok location => Task.attempt refusal (.makeDirectory location)

/-- Takes a directory that cannot be made for made if it is there already. -/
def orThere (path : Path) (fault : FileFault) : Task (Except FileFault Unit) := do
  return if (← Task.look).isDirectory path then .ok () else .error fault

/-- Makes the directory at the head of a lineage and those above it that are missing. A directory
that is there already is as good. -/
def makeDirectories (refusal : Refusal) : List Path → Task (Except FileFault Unit)
  | [] => pure (.error (.other "failed to create whole tree"))
  | path :: above => do
      if path.spelling = "" then return .ok ()
      match ← makeDirectory refusal path with
      | .ok () => return .ok ()
      | .error .notFound =>
          match ← makeDirectories refusal above with
          | .error fault => return .error fault
          | .ok () =>
              match ← makeDirectory refusal path with
              | .ok () => return .ok ()
              | .error fault => orThere path fault
      | .error fault => orThere path fault

/-- The location of the directory that a path names. The empty path names the working
directory. -/
def directory (fs : FileSystem) (path : Path) : Except FileFault Location := do
  if path.spelling = "" then return []
  let location ← fs.locate path
  fs.requireDirectory location
  return location

end FileSystem

end MockForge

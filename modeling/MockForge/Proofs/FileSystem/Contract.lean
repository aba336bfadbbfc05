import MockForge.FileSystem.Task
import MockForge.Proofs.FileSystem.Lookup

/-!
# Contracts of tasks

What holds of the value of a task and of the file system it leaves, put together along its steps.
-/

namespace MockForge

namespace Task

variable {α β : Type} {task : Task α} {next : α → Task β} {start : FileSystem}

/-- A task ends with a value and a file system of which `post` holds. -/
def Ensures (task : Task α) (start : FileSystem) (post : α → FileSystem → Prop) : Prop :=
  post (task start).value (task start).files

/-- What a task ensures is enough for the task after it. -/
theorem ensures_bind {post : β → FileSystem → Prop}
    (h : task.Ensures start fun a now => (next a).Ensures now post) :
    (task >>= next).Ensures start post :=
  h

theorem Ensures.weaken {stronger post : α → FileSystem → Prop}
    (h : task.Ensures start stronger) (hp : ∀ a now, stronger a now → post a now) :
    task.Ensures start post :=
  hp _ _ h

theorem Ensures.of_forall {post : α → FileSystem → Prop} (h : ∀ a now, post a now) :
    task.Ensures start post :=
  h _ _

/-- Two things that a task ensures hold together. -/
theorem Ensures.and {first second : α → FileSystem → Prop} (h : task.Ensures start first)
    (hs : task.Ensures start second) :
    task.Ensures start fun a now => first a now ∧ second a now :=
  ⟨h, hs⟩

theorem ensures_look {post : FileSystem → FileSystem → Prop} (h : post start start) :
    look.Ensures start post :=
  h

theorem ensures_perform {operation : FileSystem.Operation} {post : Unit → FileSystem → Prop}
    (h : post () (start.perform operation)) : (perform operation).Ensures start post :=
  h

/-- An operation is refused, and then nothing changes, or it is performed. -/
theorem ensures_attempt {refusal : FileSystem.Refusal} {operation : FileSystem.Operation}
    {post : Except FileFault Unit → FileSystem → Prop} (hr : ∀ fault, post (.error fault) start)
    (hp : post (.ok ()) (start.perform operation)) :
    (attempt refusal operation).Ensures start post := by
  refine ensures_bind (ensures_look ?_)
  split
  · exact hr _
  · exact hp

/-- No task takes away a directory. -/
theorem stay (task : Task α) (start : FileSystem) :
    FileSystem.DirectoriesStay start (task start).files := by
  intro b h
  rw [(task start).files_eq]
  induction (task start).operations generalizing start with
  | nil => exact h
  | cons operation rest ih => exact ih _ (FileSystem.get?_perform_directory h operation)

/-- What is ensured may rest on the directories that stay. -/
theorem Ensures.with_stay {post : α → FileSystem → Prop} (h : task.Ensures start post) :
    task.Ensures start fun a now => post a now ∧ FileSystem.DirectoriesStay start now :=
  ⟨h, task.stay start⟩

end Task

end MockForge

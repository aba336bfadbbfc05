import MockForge.Proofs.FileSystem.Contract

/-!
# What tasks pass through

A task works one operation at a time, so it can be stopped between any two of them. `Throughout`
says what holds of every file system on the way, from the first to the last.
-/

namespace MockForge

namespace FileSystem

variable {fs now later : FileSystem} {b location : Location}

/-! ## What stays the same -/

/-- The same regular file is at a location in both file systems, or none is in either. -/
def SameFile (fs now : FileSystem) (b : Location) : Prop :=
  ∀ contents, now.get? b = some (.file contents) ↔ fs.get? b = some (.file contents)

theorem SameFile.of_eq (h : now.get? b = fs.get? b) : SameFile fs now b := by
  intro contents
  rw [h]

theorem SameFile.trans (h : SameFile fs now b) (hl : SameFile now later b) :
    SameFile fs later b := fun contents => (hl contents).trans (h contents)

/-- Where there is neither a file before nor one after, nothing happened to one. -/
theorem SameFile.of_absent (h : ∀ contents, fs.get? b ≠ some (.file contents))
    (hn : ∀ contents, now.get? b ≠ some (.file contents)) : SameFile fs now b :=
  fun contents => ⟨fun hc => absurd hc (hn contents), fun hc => absurd hc (h contents)⟩

/-- The locations whose entries an operation changes. -/
def Operation.changed : Operation → List Location
  | .makeDirectory location | .createFile location | .fill location _ | .remove location =>
      [location]
  | .rename source target => [source, target]

/-- An operation leaves every other entry as it is. -/
theorem get?_perform_of_notMem {operation : Operation} (h : b ∉ operation.changed) :
    (fs.perform operation).get? b = fs.get? b := by
  cases operation with
  | makeDirectory location | createFile location =>
      rw [perform, get?_add, if_neg]
      rintro ⟨rfl, -⟩
      simp [Operation.changed] at h
  | fill location contents =>
      by_cases hold : ∃ old, fs.get? location = some (.file old)
      · obtain ⟨old, ho⟩ := hold
        rw [perform, get?_fill ho, if_neg]
        simpa [Operation.changed] using h
      · rw [perform, fill_eq_self fun old ho => hold ⟨old, ho⟩]
  | rename source target =>
      rw [perform]
      by_cases hr : (∃ contents, fs.get? source = some (.file contents)) ∧
          fs.get? target.tail = some .directory ∧ fs.get? target ≠ some .directory
      · obtain ⟨⟨contents, hs⟩, ht, hd⟩ := hr
        simp only [Operation.changed, List.mem_cons, List.not_mem_nil, or_false, not_or] at h
        rw [get?_rename hs ht hd, if_neg h.2, if_neg h.1]
      · rw [rename_eq_self hr]
  | remove location =>
      by_cases hold : ∃ old, fs.get? location = some (.file old)
      · obtain ⟨old, ho⟩ := hold
        rw [perform, get?_remove ho, if_neg]
        simpa [Operation.changed] using h
      · rw [perform, remove_eq_self fun old ho => hold ⟨old, ho⟩]

/-- A directory is made where no file is. -/
theorem sameFile_makeDirectory (fs : FileSystem) (location b : Location) :
    SameFile fs (fs.perform (.makeDirectory location)) b := by
  intro contents
  rw [perform, get?_add]
  split
  · next h =>
    obtain ⟨rfl, -, hn⟩ := h
    simp [hn]
  · rfl

/-- The file systems that a list of operations passes through are those that its first part does,
and after that those of its second part. -/
theorem mem_states_append {first rest : List Operation} :
    now ∈ fs.states (first ++ rest) ↔
      now ∈ fs.states first ∨ now ∈ (first.foldl perform fs).states rest := by
  induction first generalizing fs with
  | nil =>
      have hhead : fs ∈ fs.states rest := by cases rest <;> simp [states]
      constructor
      · exact .inr
      · rintro (h | h)
        · rwa [List.mem_singleton.1 h]
        · exact h
  | cons operation first ih =>
      simp only [List.cons_append, states, List.mem_cons, ih, List.foldl_cons, or_assoc]

/-- The last file system that operations pass through is the one that they lead to. -/
theorem foldl_mem_states (operations : List Operation) :
    operations.foldl perform fs ∈ fs.states operations := by
  induction operations generalizing fs with
  | nil => exact List.mem_singleton.2 rfl
  | cons operation rest ih => exact List.mem_cons_of_mem _ ih

end FileSystem

/-! ## Every state on the way -/

namespace Task

variable {α β : Type} {task : Task α} {next : α → Task β} {start : FileSystem}
  {inv : FileSystem → Prop}

/-- A task passes only through file systems of which `inv` holds. -/
def Throughout (task : Task α) (start : FileSystem) (inv : FileSystem → Prop) : Prop :=
  ∀ now ∈ start.states (task start).operations, inv now

theorem Throughout.ensures (h : task.Throughout start inv) :
    task.Ensures start fun _ now => inv now := by
  refine h _ ?_
  rw [(task start).files_eq]
  exact FileSystem.foldl_mem_states _

/-- A task that does nothing stays where it is. -/
theorem throughout_idle (h : inv start) (hi : (task start).operations = []) :
    task.Throughout start inv := by
  intro now hnow
  rw [hi] at hnow
  rwa [List.mem_singleton.1 hnow]

theorem throughout_bind (h : task.Throughout start inv)
    (hn : task.Ensures start fun a now => (next a).Throughout now inv) :
    (task >>= next).Throughout start inv := by
  intro now hnow
  rw [operations_bind, FileSystem.mem_states_append, ← (task start).files_eq] at hnow
  rcases hnow with hnow | hnow
  · exact h now hnow
  · exact hn now hnow

/-- Where the invariant is all that the second task needs, the two follow one another. -/
theorem Throughout.bind (h : task.Throughout start inv)
    (hn : ∀ a now, inv now → (next a).Throughout now inv) :
    (task >>= next).Throughout start inv :=
  throughout_bind h (h.ensures.weaken fun a now => hn a now)

theorem throughout_look_bind {next : FileSystem → Task β}
    (h : (next start).Throughout start inv) : (look >>= next).Throughout start inv := h

theorem throughout_perform {operation : FileSystem.Operation} (h : inv start)
    (hp : inv (start.perform operation)) : (perform operation).Throughout start inv := by
  intro now hnow
  rcases List.mem_cons.1 hnow with rfl | hnow
  · exact h
  · rwa [List.mem_singleton.1 hnow]

theorem throughout_attempt {refusal : FileSystem.Refusal} {operation : FileSystem.Operation}
    (h : inv start) (hp : inv (start.perform operation)) :
    (attempt refusal operation).Throughout start inv := by
  refine throughout_look_bind ?_
  split
  · exact throughout_idle h rfl
  · exact (throughout_perform h hp).bind fun _ _ hnow => throughout_idle hnow rfl

end Task

end MockForge

import MockForge.Proofs.FileSystem.Passage
import MockForge.Proofs.Writer.Checking

/-!
# Where a write acts

A write makes directories on the way to its targets, and its files lie at the targets or beside
them. Every operation of a write is of one of these two kinds, whatever becomes of the write. When
all paths go down and end in names, this keeps the write below its base. Main statements:
`write_keeps` and `keepsTo_of_write`.
-/

namespace MockForge

/-! ## Operations that are allowed -/

namespace Task

variable {α β : Type} {task : Task α} {next : α → Task β} {start : FileSystem}
  {allowed : FileSystem.Operation → Prop} {middle post : α → Prop}

/-- A task performs allowed operations only, and `post` holds of its value. -/
structure Keeps (task : Task α) (start : FileSystem) (allowed : FileSystem.Operation → Prop)
    (post : α → Prop) : Prop where
  operations : ∀ operation ∈ (task start).operations, allowed operation
  value : post (task start).value

theorem Keeps.bind {post : β → Prop} (h : task.Keeps start allowed middle)
    (hn : ∀ a now, middle a → (next a).Keeps now allowed post) :
    (task >>= next).Keeps start allowed post := by
  have hnext := hn _ (task start).files h.value
  constructor
  · intro operation ho
    rw [operations_bind, List.mem_append] at ho
    rcases ho with ho | ho
    · exact h.operations operation ho
    · exact hnext.operations operation ho
  · exact hnext.value

theorem keeps_pure {a : α} (h : post a) : (pure a : Task α).Keeps start allowed post :=
  ⟨fun _ ho => absurd ho List.not_mem_nil, h⟩

theorem keeps_note (notice : Notice) : (note notice).Keeps start allowed fun _ => True :=
  ⟨fun _ ho => absurd ho List.not_mem_nil, trivial⟩

theorem keeps_look_bind {next : FileSystem → Task α} (h : (next start).Keeps start allowed post) :
    (look >>= next).Keeps start allowed post :=
  ⟨h.operations, h.value⟩

theorem keeps_perform {operation : FileSystem.Operation} (h : allowed operation) :
    (perform operation).Keeps start allowed fun _ => True :=
  ⟨fun _ ho => List.mem_singleton.1 ho ▸ h, trivial⟩

theorem keeps_attempt {operation : FileSystem.Operation} (refusal : FileSystem.Refusal)
    (h : allowed operation) : (attempt refusal operation).Keeps start allowed fun _ => True := by
  refine keeps_look_bind ?_
  split
  · exact keeps_pure trivial
  · exact (keeps_perform h).bind fun _ _ _ => keeps_pure trivial

end Task

namespace Writer

open FileSystem (leadsTo)

variable {paths : List Path} {target : Path} {start : FileSystem} {fault : WriteFault}

/-- Where a writer may have files: at a target, or in the directory of one. -/
def IsBeside (paths : List Path) (b : Location) : Prop :=
  ∃ target ∈ paths, b = leadsTo target ∨ ∃ name, b = name :: leadsTo (parent target)

/-- The operations that serve to write files to their targets. -/
inductive Serves (paths : List Path) : FileSystem.Operation → Prop where
  | makeDirectory {p : Path} (hp : IsSurrounding paths p) :
      Serves paths (.makeDirectory (leadsTo p))
  | file {operation : FileSystem.Operation} (h : ∀ b ∈ operation.changed, IsBeside paths b) :
      Serves paths operation

/-! ## Staging -/

theorem makeDirectory_keeps {p : Path} (refusal : FileSystem.Refusal)
    (hp : IsSurrounding paths p) :
    (FileSystem.makeDirectory refusal p).Keeps start (Serves paths) fun _ => True := by
  refine Task.keeps_look_bind ?_
  split
  · exact Task.keeps_pure trivial
  · next location hv =>
    obtain ⟨hd, hn, hl⟩ := FileSystem.vacancy_eq_ok hv
    have hmade : (start.perform (.makeDirectory location)).get? location = some .directory := by
      rw [FileSystem.perform, FileSystem.get?_add, if_pos ⟨rfl, hd, hn⟩]
    have hlocate := hl _ (fun b hb => FileSystem.get?_perform_directory hb _) hmade
    rw [FileSystem.locate_eq_leadsTo hlocate]
    exact Task.keeps_attempt refusal (.makeDirectory hp)

theorem makeDirectories_keeps {lineage : List Path} (refusal : FileSystem.Refusal)
    (hp : ∀ p ∈ lineage, IsSurrounding paths p) :
    (FileSystem.makeDirectories refusal lineage).Keeps start (Serves paths) fun _ => True := by
  induction lineage generalizing start with
  | nil => exact Task.keeps_pure trivial
  | cons p above ih =>
      obtain ⟨hhead, hrest⟩ := List.forall_mem_cons.1 hp
      have hthere (q : Path) (fault : FileFault) (now : FileSystem) :
          (FileSystem.orThere q fault).Keeps now (Serves paths) fun _ => True :=
        Task.keeps_look_bind (Task.keeps_pure trivial)
      unfold FileSystem.makeDirectories
      split
      · exact Task.keeps_pure trivial
      · refine (makeDirectory_keeps refusal hhead).bind fun result now _ => ?_
        split
        · exact Task.keeps_pure trivial
        · refine (ih hrest).bind fun result now _ => ?_
          split
          · exact Task.keeps_pure trivial
          · refine (makeDirectory_keeps refusal hhead).bind fun result now _ => ?_
            split
            · exact Task.keeps_pure trivial
            · exact hthere _ _ _
        · exact hthere _ _ _

/-- What is made for a target is a file beside it, or there is a fault of the file system. -/
theorem makeTemporary_keeps (host : Host) (ht : target ∈ paths) (contents : ByteArray)
    (blamed : String → Path) :
    (makeTemporary host paths target contents blamed).Keeps start (Serves paths) fun
      | .error fault => fault.isFile = true
      | .ok location => IsBeside paths location := by
  refine Task.keeps_look_bind ?_
  split
  · exact Task.keeps_pure rfl
  · next place hp =>
    generalize host.namer.pick (takenNames start paths place) = name
    have hbeside : IsBeside paths (name :: place) :=
      ⟨target, ht, .inr ⟨name, by rw [FileSystem.directory_eq_leadsTo hp]⟩⟩
    have hserves {operation : FileSystem.Operation} (ho : operation.changed = [name :: place]) :
        Serves paths operation := .file fun b hb => by
      rw [ho, List.mem_singleton] at hb
      rwa [hb]
    refine (Task.keeps_attempt host.refusal (hserves rfl)).bind fun result now _ => ?_
    split
    · exact Task.keeps_pure rfl
    · refine (Task.keeps_attempt host.refusal (hserves rfl)).bind fun result now _ => ?_
      split
      · exact (Task.keeps_perform (hserves rfl)).bind fun _ _ _ => Task.keeps_pure rfl
      · exact Task.keeps_pure hbeside

theorem stage_keeps (host : Host) (ht : target ∈ paths) (text : String) :
    (stage host paths target text).Keeps start (Serves paths) fun
      | .error fault => fault.isFile = true
      | .ok location => IsBeside paths location := by
  refine (makeDirectories_keeps host.refusal fun p hp => isSurrounding_of_mem ht hp).bind
    fun result now _ => ?_
  split
  · exact Task.keeps_pure rfl
  · refine (makeTemporary_keeps host ht _ _).bind fun result now h => ?_
    split
    · exact Task.keeps_pure h
    · exact (Task.keeps_note _).bind fun _ _ _ => Task.keeps_pure h

theorem stageAll_keeps {pairs : List (Path × String)} (host : Host)
    (hp : ∀ q ∈ pairs, q.1 ∈ paths) :
    (stageAll host paths pairs).Keeps start (Serves paths) fun
      | .error (fault, made) => fault.isFile = true ∧ ∀ b ∈ made, IsBeside paths b
      | .ok locations => ∀ b ∈ locations, IsBeside paths b := by
  induction pairs generalizing start with
  | nil => exact Task.keeps_pure (by simp)
  | cons pair rest ih =>
      obtain ⟨target, text⟩ := pair
      obtain ⟨htarget, hrest⟩ := List.forall_mem_cons.1 hp
      unfold stageAll
      refine (stage_keeps host htarget text).bind fun result now h => ?_
      split
      · exact Task.keeps_pure ⟨h, by simp⟩
      · refine (ih hrest).bind fun result now hall => ?_
        split
        · exact Task.keeps_pure ⟨hall.1, List.forall_mem_cons.2 ⟨h, hall.2⟩⟩
        · exact Task.keeps_pure (List.forall_mem_cons.2 ⟨h, hall⟩)

theorem discard_keeps {locations : List Location} (h : ∀ b ∈ locations, IsBeside paths b) :
    (discard locations).Keeps start (Serves paths) fun _ => True := by
  induction locations generalizing start with
  | nil => exact Task.keeps_pure trivial
  | cons location rest ih =>
      obtain ⟨hlocation, hrest⟩ := List.forall_mem_cons.1 h
      have hserves : Serves paths (.remove location) := .file (by
        simpa [FileSystem.Operation.changed] using hlocation)
      exact (Task.keeps_perform hserves).bind fun _ _ _ => ih hrest

/-! ## Placing -/

theorem backUp_keeps (host : Host) (ht : target ∈ paths) :
    (backUp host paths target).Keeps start (Serves paths) fun
      | .error fault => fault.isFile = true
      | .ok backup => ∀ b ∈ backup, IsBeside paths b := by
  refine Task.keeps_look_bind ?_
  split
  · exact Task.keeps_pure (by simp)
  · refine (makeTemporary_keeps host ht _ _).bind fun result now h => ?_
    split
    · exact Task.keeps_pure h
    · exact (Task.keeps_note _).bind fun _ _ _ => Task.keeps_pure (by simpa using h)

theorem move_keeps {staged : Location} (host : Host) (ht : target ∈ paths)
    (hs : IsBeside paths staged) :
    (move host staged target).Keeps start (Serves paths) fun
      | .error fault => fault.isFile = true
      | .ok location => IsBeside paths location := by
  refine Task.keeps_look_bind ?_
  split
  · exact Task.keeps_pure rfl
  · next location hd =>
    obtain ⟨-, -, hl⟩ := FileSystem.destination_eq_ok hd
    have hbeside : IsBeside paths location :=
      ⟨target, ht, .inl (FileSystem.locate_eq_leadsTo hl)⟩
    have hserves : Serves paths (.rename staged location) := .file (by
      simpa [FileSystem.Operation.changed] using ⟨hs, hbeside⟩)
    refine (Task.keeps_attempt host.refusal hserves).bind fun result now _ => ?_
    split
    · exact Task.keeps_pure rfl
    · exact Task.keeps_pure hbeside

theorem undo_keeps {location : Location} {backup : Option Location}
    (hl : IsBeside paths location) (hb : ∀ b ∈ backup, IsBeside paths b) :
    (undo location backup).Keeps start (Serves paths) fun _ => True := by
  cases backup with
  | none => exact Task.keeps_perform (.file (by simpa [FileSystem.Operation.changed] using hl))
  | some copy =>
      have hcopy := hb copy rfl
      exact Task.keeps_perform (.file (by simpa [FileSystem.Operation.changed] using ⟨hcopy, hl⟩))

theorem placeAll_keeps {pairs : List (Location × Path)} (host : Host)
    (hp : ∀ q ∈ pairs, IsBeside paths q.1 ∧ q.2 ∈ paths) :
    (placeAll host paths pairs).Keeps start (Serves paths) fun
      | .error (fault, left) => fault.isFile = true ∧ ∀ b ∈ left, IsBeside paths b
      | .ok backups => ∀ b ∈ backups, IsBeside paths b := by
  induction pairs generalizing start with
  | nil => exact Task.keeps_pure (by simp)
  | cons pair rest ih =>
      obtain ⟨staged, target⟩ := pair
      obtain ⟨⟨hstaged, htarget⟩, hrest⟩ := List.forall_mem_cons.1 hp
      have hlater : ∀ b ∈ rest.map (·.1), IsBeside paths b := by
        simpa using fun a q hq => (hrest (a, q) hq).1
      unfold placeAll
      refine (backUp_keeps host htarget).bind fun result now hbackup => ?_
      split
      · exact Task.keeps_pure ⟨hbackup, List.forall_mem_cons.2 ⟨hstaged, hlater⟩⟩
      · next backup =>
        have hcopies : ∀ b ∈ backup.toList, IsBeside paths b := by simpa using hbackup
        refine (move_keeps host htarget hstaged).bind fun result now hlocation => ?_
        split
        · refine Task.keeps_pure ⟨hlocation, fun b hb => ?_⟩
          simp only [List.cons_append, List.mem_cons, List.mem_append] at hb
          rcases hb with rfl | hb | hb
          · exact hstaged
          · exact hcopies b hb
          · exact hlater b hb
        · refine (ih hrest).bind fun result now hall => ?_
          split
          · exact (undo_keeps hlocation hbackup).bind fun _ _ _ => Task.keeps_pure hall
          · refine Task.keeps_pure fun b hb => ?_
            rcases List.mem_append.1 hb with hb | hb
            · exact hcopies b hb
            · exact hall b hb

/-! ## The whole -/

/-- A write performs operations for its targets only. It ends with the first flaw of the paths, or
with a fault of the file system, or well. -/
theorem write_keeps (writer : Writer) (mock : Mock) (start : FileSystem) :
    (writer.write mock).Keeps start (Serves (pathsBelow writer.base mock)) fun result =>
      ∀ fault, result = .error fault →
        FirstFlaw writer.base mock.files fault ∨
          Flawless writer.base mock.files ∧ fault.isFile = true := by
  rcases flawless_or_firstFlaw writer.base mock.files with hflawless | ⟨first, hflaw⟩
  · have hfile {fault : WriteFault} (h : fault.isFile = true) (other : WriteFault)
        (he : (.error fault : Except WriteFault (List Path)) = .error other) :
        FirstFlaw writer.base mock.files other ∨
          Flawless writer.base mock.files ∧ other.isFile = true :=
      .inr ⟨hflawless, Except.error.inj he ▸ h⟩
    unfold write
    rw [hflawless.targets_eq]
    refine (stageAll_keeps writer.host fun q hq => (List.of_mem_zip hq).1).bind
      fun result now h => ?_
    split
    · exact (discard_keeps h.2).bind fun _ _ _ => Task.keeps_pure (hfile h.1)
    · refine (placeAll_keeps writer.host fun q hq => ?_).bind fun result now hplaced => ?_
      · exact ⟨h q.1 (List.of_mem_zip hq).1, (List.of_mem_zip hq).2⟩
      · split
        · exact (discard_keeps hplaced.2).bind fun _ _ _ => Task.keeps_pure (hfile hplaced.1)
        · refine (discard_keeps hplaced).bind fun _ _ _ => (Task.keeps_note _).bind fun _ _ _ => ?_
          exact Task.keeps_pure fun fault he => by cases he
  · rw [hflaw.write_eq]
    exact Task.keeps_pure fun fault he => .inl (Except.error.inj he ▸ hflaw)

/-! ## Staying below the base -/

/-- The operations that change only what is below a directory, and those that make a directory on
the way there. -/
inductive KeepsTo (p : Path) : FileSystem.Operation → Prop where
  | below {operation : FileSystem.Operation}
      (h : ∀ b ∈ operation.changed, FileSystem.IsBelow p b) : KeepsTo p operation
  | onTheWay {b : Location} (h : b ∈ FileSystem.passages p) : KeepsTo p (.makeDirectory b)

/-- When the paths of all files go down and end in names, a write stays below its base. Without a
name at its end a path can be that of the base, which has temporary files beside it. -/
theorem keepsTo_of_write (writer : Writer) (mock : Mock) (start : FileSystem)
    (h : ∀ file ∈ mock.files, (⟨file.path⟩ : Path).IsDownward ∧ (⟨file.path⟩ : Path).IsNamed) :
    ∀ operation ∈ (writer.write mock start).operations, KeepsTo writer.base operation := by
  intro operation ho
  cases (write_keeps writer mock start).operations operation ho with
  | makeDirectory hp =>
      rcases hp with ⟨target, ht, habove⟩ | rfl
      · obtain ⟨file, hf, rfl⟩ := List.mem_map.1 ht
        rcases FileSystem.isBelow_or_mem_passages (h file hf).1 habove with hb | hb
        · exact .below fun b hc => List.mem_singleton.1 hc ▸ hb
        · exact .onTheWay hb
      · exact .onTheWay (FileSystem.foldl_mem_passed [] _ [])
  | file hbeside =>
      refine .below fun b hb => ?_
      obtain ⟨target, ht, hplace⟩ := hbeside b hb
      obtain ⟨file, hf, rfl⟩ := List.mem_map.1 ht
      obtain ⟨hdown, hnamed⟩ := h file hf
      rcases hplace with rfl | ⟨name, rfl⟩
      · exact FileSystem.isBelow_join hdown hnamed
      · exact FileSystem.isBelow_parent_join hdown hnamed name

end Writer

end MockForge

import MockForge.Writer

/-!
# What a writer tells

A writer tells how far it has come: which files it has staged or copied, and that it has written
them all. Whatever becomes of a write, it tells nothing else. Main statement: `write_tells`.
-/

namespace MockForge

/-! ## Tasks that tell only what is allowed -/

namespace Task

variable {α β : Type} {task : Task α} {next : α → Task β} {allowed : Notice → Prop}

/-- Wherever a task starts, all that it tells is allowed. -/
def Tells (task : Task α) (allowed : Notice → Prop) : Prop :=
  ∀ start, ∀ notice ∈ (task start).notices, allowed notice

theorem Tells.bind (h : task.Tells allowed) (hn : ∀ a, (next a).Tells allowed) :
    (task >>= next).Tells allowed := by
  intro start notice hm
  rw [notices_bind, List.mem_append] at hm
  rcases hm with hm | hm
  · exact h start notice hm
  · exact hn _ _ notice hm

theorem Tells.weaken {wider : Notice → Prop} (h : task.Tells allowed)
    (hw : ∀ notice, allowed notice → wider notice) : task.Tells wider :=
  fun start notice hm => hw notice (h start notice hm)

/-- A task whose record of notices is empty tells nothing that is not allowed. -/
theorem tells_of_notices_eq_nil (h : ∀ start, (task start).notices = []) :
    task.Tells allowed := by
  intro start notice hm
  rw [h start] at hm
  cases hm

theorem tells_pure (a : α) : (pure a : Task α).Tells allowed :=
  tells_of_notices_eq_nil fun _ => rfl

theorem tells_look : look.Tells allowed := tells_of_notices_eq_nil fun _ => rfl

theorem tells_perform (operation : FileSystem.Operation) : (perform operation).Tells allowed :=
  tells_of_notices_eq_nil fun _ => rfl

theorem tells_note {notice : Notice} (h : allowed notice) : (note notice).Tells allowed := by
  intro start other hm
  rw [List.mem_singleton.1 hm]
  exact h

theorem tells_attempt (refusal : FileSystem.Refusal) (operation : FileSystem.Operation) :
    (attempt refusal operation).Tells allowed := by
  refine tells_look.bind fun files => ?_
  split
  · exact tells_pure _
  · exact (tells_perform operation).bind fun () => tells_pure _

end Task

/-! ## Making directories -/

namespace FileSystem

open MockForge.Task (tells_pure tells_look tells_attempt)

variable {allowed : Notice → Prop}

theorem makeDirectory_tells (refusal : Refusal) (path : Path) :
    (makeDirectory refusal path).Tells allowed := by
  refine tells_look.bind fun files => ?_
  split
  · exact tells_pure _
  · exact tells_attempt refusal _

theorem orThere_tells (path : Path) (fault : FileFault) : (orThere path fault).Tells allowed :=
  tells_look.bind fun _ => tells_pure _

theorem makeDirectories_tells (refusal : Refusal) (lineage : List Path) :
    (makeDirectories refusal lineage).Tells allowed := by
  induction lineage with
  | nil => exact tells_pure _
  | cons path above ih =>
      unfold makeDirectories
      split
      · exact tells_pure _
      · refine (makeDirectory_tells refusal path).bind fun result => ?_
        split
        · exact tells_pure _
        · refine ih.bind fun result => ?_
          split
          · exact tells_pure _
          · refine (makeDirectory_tells refusal path).bind fun result => ?_
            split
            · exact tells_pure _
            · exact orThere_tells path _
        · exact orThere_tells path _

end FileSystem

/-! ## Writing -/

namespace Writer

open MockForge.Task (tells_pure tells_look tells_perform tells_note tells_attempt)

/-- What a writer tells of. -/
inductive IsProgress : Notice → Prop where
  | staged (path : String) : IsProgress (.staged path)
  | backedUp (path : String) : IsProgress (.backedUp path)
  | wrote (files : Nat) (mock base : String) : IsProgress (.wrote files mock base)

variable (host : Host) (targets : List Path)

theorem makeTemporary_tells (target : Path) (contents : ByteArray) (blamed : String → Path) :
    (makeTemporary host targets target contents blamed).Tells IsProgress := by
  refine tells_look.bind fun files => ?_
  split
  · exact tells_pure _
  · refine (tells_attempt _ _).bind fun created => ?_
    split
    · exact tells_pure _
    · refine (tells_attempt _ _).bind fun filled => ?_
      split
      · exact (tells_perform _).bind fun () => tells_pure _
      · exact tells_pure _

theorem discard_tells (locations : List Location) : (discard locations).Tells IsProgress := by
  induction locations with
  | nil => exact tells_pure _
  | cons location rest ih => exact (tells_perform _).bind fun () => ih

theorem stage_tells (target : Path) (text : String) :
    (stage host targets target text).Tells IsProgress := by
  refine (FileSystem.makeDirectories_tells _ _).bind fun made => ?_
  split
  · exact tells_pure _
  · refine (makeTemporary_tells host targets _ _ _).bind fun temporary => ?_
    split
    · exact tells_pure _
    · exact (tells_note (.staged _)).bind fun () => tells_pure _

theorem stageAll_tells (pairs : List (Path × String)) :
    (stageAll host targets pairs).Tells IsProgress := by
  induction pairs with
  | nil => exact tells_pure _
  | cons pair rest ih =>
      unfold stageAll
      refine (stage_tells host targets pair.1 pair.2).bind fun staged => ?_
      split
      · exact tells_pure _
      · refine ih.bind fun others => ?_
        split <;> exact tells_pure _

theorem backUp_tells (target : Path) : (backUp host targets target).Tells IsProgress := by
  refine tells_look.bind fun files => ?_
  split
  · exact tells_pure _
  · refine (makeTemporary_tells host targets _ _ _).bind fun copied => ?_
    split
    · exact tells_pure _
    · exact (tells_note (.backedUp _)).bind fun () => tells_pure _

theorem move_tells (staged : Location) (target : Path) :
    (move host staged target).Tells IsProgress := by
  refine tells_look.bind fun files => ?_
  split
  · exact tells_pure _
  · refine (tells_attempt _ _).bind fun moved => ?_
    split <;> exact tells_pure _

theorem undo_tells (location : Location) (backup : Option Location) :
    (undo location backup).Tells IsProgress := by
  cases backup <;> exact tells_perform _

theorem placeAll_tells (pairs : List (Location × Path)) :
    (placeAll host targets pairs).Tells IsProgress := by
  induction pairs with
  | nil => exact tells_pure _
  | cons pair rest ih =>
      unfold placeAll
      refine (backUp_tells host targets pair.2).bind fun copied => ?_
      split
      · exact tells_pure _
      · refine (move_tells host pair.1 pair.2).bind fun moved => ?_
        split
        · exact tells_pure _
        · refine ih.bind fun others => ?_
          split
          · exact (undo_tells _ _).bind fun () => tells_pure _
          · exact tells_pure _

/-- Whether it succeeds or fails, a write only tells how far it has come. -/
theorem write_tells (writer : Writer) (mock : Mock) : (writer.write mock).Tells IsProgress := by
  unfold write
  split
  · exact tells_pure _
  · refine (stageAll_tells writer.host _ _).bind fun staged => ?_
    split
    · exact (discard_tells _).bind fun () => tells_pure _
    · refine (placeAll_tells writer.host _ _).bind fun placed => ?_
      split
      · exact (discard_tells _).bind fun () => tells_pure _
      · refine (discard_tells _).bind fun () => ?_
        exact (tells_note (.wrote _ _ _)).bind fun () => tells_pure _

end Writer

end MockForge

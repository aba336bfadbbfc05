import MockForge.Proofs.FileSystem.Contract
import MockForge.Writer

/-!
# Temporary files

A temporary file lies where nothing was and where no target leads. Making one changes nothing else,
and when it cannot be made nothing changes at all.
-/

namespace MockForge

namespace FileSystem

variable {fs : FileSystem} {location : Location}

/-- What is found at a location is among the locations. -/
theorem mem_locations {entry : Entry} {name : String} {place : Location}
    (h : fs.get? (name :: place) = some entry) : name :: place ∈ fs.locations := by
  obtain ⟨before, after, he, -⟩ := List.lookup_eq_some_iff.1 h
  rw [locations, he]
  simp

theorem directory_eq_ok {p : Path} {place : Location} (h : fs.directory p = .ok place) :
    fs.get? place = some .directory := by
  unfold directory at h
  split at h
  · simp only [pure, Except.pure, Except.ok.injEq] at h
    rw [← h]
    rfl
  · simp only [bind_eq_ok, pure, Except.pure, Except.ok.injEq] at h
    obtain ⟨location, -, ⟨⟩, hd, rfl⟩ := h
    exact requireDirectory_eq_ok_iff.1 hd

/-- Removing takes out what is no directory. -/
theorem get?_remove_of_ne_directory (h : fs.get? location ≠ some .directory) (b : Location) :
    (fs.remove location).get? b = if b = location then none else fs.get? b := by
  cases hl : fs.get? location with
  | none =>
      rw [remove_eq_self (by simp [hl])]
      split
      · next hb => rw [hb, hl]
      · rfl
  | some entry =>
      cases entry with
      | directory => exact absurd hl h
      | file contents => exact get?_remove hl b

end FileSystem

namespace Writer

variable {host : Host} {paths : List Path} {target : Path} {start now : FileSystem}

/-- A location that no target passes through. -/
def IsTemporary (paths : List Path) (location : Location) : Prop :=
  ∀ path ∈ paths, location ∉ FileSystem.passages path

theorem IsTemporary.locate_ne {location : Location} (h : IsTemporary paths location)
    (ht : target ∈ paths) : start.locate target ≠ .ok location :=
  fun hl => h target ht (FileSystem.locate_eq_ok hl)

theorem mem_takenNames {name : String} {place : Location} :
    name ∈ takenNames start paths place ↔
      name :: place ∈ start.locations ∨
        ∃ path ∈ paths, name :: place ∈ FileSystem.passages path := by
  rw [takenNames, List.mem_filterMap, ← List.mem_flatMap, ← List.mem_append]
  constructor
  · rintro ⟨location, hm, hn⟩
    match location with
    | [] => simp at hn
    | other :: around =>
        simp only [Option.ite_none_right_eq_some, Option.some.injEq] at hn
        rwa [← hn.1, ← hn.2]
  · intro hm
    exact ⟨name :: place, hm, by simp⟩

/-- A picked name makes a temporary location in its directory, and a vacant one. -/
theorem pick_isTemporary (namer : Namer) (fs : FileSystem) (paths : List Path)
    (place : Location) :
    IsTemporary paths (namer.pick (takenNames fs paths place) :: place) ∧
      fs.get? (namer.pick (takenNames fs paths place) :: place) = none := by
  have hfresh := namer.pick_fresh (takenNames fs paths place)
  rw [mem_takenNames, not_or] at hfresh
  constructor
  · intro path hp hm
    exact hfresh.2 ⟨path, hp, hm⟩
  · cases hg : fs.get? (namer.pick (takenNames fs paths place) :: place) with
    | none => rfl
    | some entry => exact absurd (FileSystem.mem_locations hg) hfresh.1

/-- The one file system is the other with one more file at a temporary location. -/
structure Adds (paths : List Path) (start now : FileSystem) (location : Location)
    (contents : ByteArray) : Prop where
  temporary : IsTemporary paths location
  vacant : start.get? location = none
  get?_eq : ∀ b, now.get? b = if b = location then some (.file contents) else start.get? b

/-- A temporary file is made with the contents asked for, or nothing is changed. -/
theorem makeTemporary_ensures (host : Host) (paths : List Path) (target : Path)
    (contents : ByteArray) (blamed : String → Path) (start : FileSystem) :
    (makeTemporary host paths target contents blamed).Ensures start fun
      | .error _, now => ∀ b, now.get? b = start.get? b
      | .ok location, now => Adds paths start now location contents := by
  refine Task.ensures_bind (Task.ensures_look ?_)
  split
  · exact fun _ => rfl
  · next place hp =>
    obtain ⟨ht, hv⟩ := pick_isTemporary host.namer start paths place
    generalize host.namer.pick (takenNames start paths place) = name at ht hv ⊢
    have hc (b : Location) : (start.add (name :: place) (.file .empty)).get? b =
        if b = name :: place then some (.file .empty) else start.get? b := by
      rw [FileSystem.get?_add]
      simp [hv, FileSystem.directory_eq_ok hp]
    have hf : (start.add (name :: place) (.file .empty)).get? (name :: place) =
        some (.file .empty) := by rw [hc, if_pos rfl]
    refine Task.ensures_bind (Task.ensures_attempt (fun fault b => rfl) ?_)
    refine Task.ensures_bind (Task.ensures_attempt (fun fault b => ?_) ⟨ht, hv, fun b => ?_⟩)
    · show ((start.add (name :: place) (.file .empty)).remove (name :: place)).get? b = _
      rw [FileSystem.get?_remove hf, hc]
      split
      · next hb => rw [hb, hv]
      · rfl
    · show ((start.add (name :: place) (.file .empty)).fill (name :: place) contents).get? b = _
      rw [FileSystem.get?_fill hf, hc]
      split <;> rfl

/-- What is discarded is gone, and nothing else. -/
theorem discard_ensures {locations : List Location}
    (h : ∀ b ∈ locations, start.get? b ≠ some .directory) :
    (discard locations).Ensures start fun _ now =>
      ∀ b, now.get? b = if b ∈ locations then none else start.get? b := by
  induction locations generalizing start with
  | nil =>
      intro b
      simp [discard]
  | cons location rest ih =>
      have hr := FileSystem.get?_remove_of_ne_directory (h location (by simp))
      have hn : ∀ b ∈ rest, (start.remove location).get? b ≠ some .directory := by
        intro b hb
        rw [hr]
        split
        · simp
        · exact h b (by simp [hb])
      refine Task.ensures_bind (Task.ensures_perform ((ih hn).weaken ?_))
      intro _ now hnow b
      rw [hnow, hr]
      by_cases h1 : b = location <;> by_cases h2 : b ∈ rest <;> simp [h1, h2]

end Writer

end MockForge

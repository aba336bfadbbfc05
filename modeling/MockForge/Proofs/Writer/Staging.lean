import MockForge.Proofs.Writer.Temporary
import Mathlib.Data.List.Forall2

/-!
# Staging

Staging leaves everything as it was and adds two kinds of entries only: the temporary files on its
list, and directories above targets. `Staged` says so; every step of staging keeps it, with a
longer list where a temporary file is made.
-/

namespace MockForge.Writer

open FileSystem (DirectoriesStay)

variable {host : Host} {paths : List Path} {target : Path} {start now later : FileSystem}
  {temporaries : List Location}

/-- A location above a target: a path above the target leads there. -/
def IsAbove (paths : List Path) (fs : FileSystem) (location : Location) : Prop :=
  ∃ target ∈ paths, ∃ above ∈ target.parents, fs.locate above = .ok location

/-- Nothing that was there has changed. What is new are the temporary files of the list, and
directories above targets. -/
structure Staged (paths : List Path) (start now : FileSystem) (temporaries : List Location) :
    Prop where
  kept : ∀ b entry, start.get? b = some entry → now.get? b = some entry
  temporary : ∀ b ∈ temporaries,
    start.get? b = none ∧ ∃ contents, now.get? b = some (.file contents)
  new : ∀ b ∉ temporaries, start.get? b = none →
    now.get? b = none ∨ now.get? b = some .directory ∧ IsAbove paths now b

namespace Staged

theorem refl (paths : List Path) (start : FileSystem) : Staged paths start start [] :=
  ⟨fun _ _ h => h, by simp, fun _ _ h => .inl h⟩

/-- A change that spares all but temporary files keeps the staging when the temporary files that
it leaves are those of the new list, and when what else it makes are directories above targets. -/
theorem change {next : List Location} (h : Staged paths start now temporaries)
    (hs : DirectoriesStay now later)
    (hk : ∀ b entry, now.get? b = some entry → b ∉ temporaries → later.get? b = some entry)
    (ht : ∀ b ∈ next, (b ∈ temporaries ∨ now.get? b = none) ∧
      ∃ contents, later.get? b = some (.file contents))
    (hn : ∀ b ∉ next, b ∈ temporaries ∨ now.get? b = none →
      later.get? b = none ∨ later.get? b = some .directory ∧ IsAbove paths later b) :
    Staged paths start later next where
  kept b entry hb := by
    refine hk b entry (h.kept b entry hb) fun hm => ?_
    rw [(h.temporary b hm).1] at hb
    simp at hb
  temporary b hb := by
    obtain ⟨hm | hg, hf⟩ := ht b hb
    · exact ⟨(h.temporary b hm).1, hf⟩
    · refine ⟨?_, hf⟩
      cases hv : start.get? b with
      | none => rfl
      | some entry =>
          rw [h.kept b entry hv] at hg
          simp at hg
  new b hb hv := by
    by_cases hm : b ∈ temporaries
    · exact hn b hb (.inl hm)
    · rcases h.new b hm hv with hg | ⟨hd, target, htarget, above, ha, hl⟩
      · exact hn b hb (.inr hg)
      · exact .inr ⟨hs hd, target, htarget, above, ha, FileSystem.locate_of_stay hs hl⟩

/-- The order of the temporary files does not matter. -/
theorem of_mem_iff {next : List Location} (h : Staged paths start now temporaries)
    (hm : ∀ b, b ∈ next ↔ b ∈ temporaries) : Staged paths start now next where
  kept := h.kept
  temporary b hb := h.temporary b ((hm b).1 hb)
  new b hb := h.new b fun ht => hb ((hm b).2 ht)

/-- A change that no look-up notices changes nothing about the staging. -/
theorem congr (h : Staged paths start now temporaries) (he : ∀ b, later.get? b = now.get? b) :
    Staged paths start later temporaries := by
  refine h.change (fun b hb => (he b).trans hb) (fun b entry hb _ => (he b).trans hb) ?_ ?_
  · intro b hb
    rw [he]
    exact ⟨.inl hb, (h.temporary b hb).2⟩
  · rintro b hb (hm | hg)
    · exact absurd hm hb
    · exact .inl ((he b).trans hg)

/-- One more temporary file. -/
theorem add {location : Location} {contents : ByteArray}
    (h : Staged paths start now temporaries) (ha : Adds paths now later location contents)
    (hs : DirectoriesStay now later) : Staged paths start later (location :: temporaries) := by
  refine h.change hs ?_ ?_ ?_
  · intro b entry hb _
    rw [ha.get?_eq, if_neg (FileSystem.ne_of_vacant ha.vacant hb), hb]
  · intro b hb
    rw [ha.get?_eq]
    by_cases hl : b = location
    · exact ⟨.inr (hl ▸ ha.vacant), contents, if_pos hl⟩
    · have hm := List.mem_of_ne_of_mem hl hb
      rw [if_neg hl]
      exact ⟨.inl hm, (h.temporary b hm).2⟩
  · intro b hb hg
    rw [List.mem_cons, not_or] at hb
    rw [ha.get?_eq, if_neg hb.1]
    exact .inl (hg.resolve_left hb.2)

/-- Once the temporary files are discarded only directories are new. -/
theorem discard (h : Staged paths start now temporaries) (hs : DirectoriesStay now later)
    (hd : ∀ b, later.get? b = if b ∈ temporaries then none else now.get? b) :
    Staged paths start later [] := by
  refine h.change hs ?_ (by simp) ?_
  · intro b entry hb hm
    rw [hd, if_neg hm, hb]
  · intro b _ hg
    rw [hd]
    split
    · exact .inl rfl
    · next hm => exact .inl (hg.resolve_left hm)

end Staged

/-! ## Directories -/

/-- Nothing is made at the dot that stands for the directory of a target without any above it. -/
theorem vacancy_here (fs : FileSystem) : fs.vacancy ⟨"."⟩ = .error .alreadyExists := rfl

/-- The paths at which directories are made for a target. -/
def IsSurrounding (paths : List Path) (p : Path) : Prop :=
  (∃ target ∈ paths, p ∈ target.parents) ∨ p = ⟨"."⟩

theorem isSurrounding_of_mem {p : Path} (ht : target ∈ paths) (hp : p ∈ surroundings target) :
    IsSurrounding paths p := by
  unfold surroundings at hp
  split at hp
  · exact .inr (List.mem_singleton.1 hp)
  · exact .inl ⟨target, ht, hp⟩

theorem makeDirectory_ensures {p : Path} (refusal : FileSystem.Refusal)
    (hp : IsSurrounding paths p) (h : Staged paths start now temporaries) :
    (FileSystem.makeDirectory refusal p).Ensures now fun _ later =>
      Staged paths start later temporaries := by
  refine Task.ensures_bind (Task.ensures_look ?_)
  split
  · exact h
  · next location hv =>
    refine Task.ensures_attempt (fun _ => h) ?_
    obtain ⟨hd, hg, hl⟩ := FileSystem.vacancy_eq_ok hv
    have hc (b : Location) : (now.perform (.makeDirectory location)).get? b =
        if b = location then some .directory else now.get? b := by
      rw [FileSystem.perform, FileSystem.get?_add]
      simp [hd, hg]
    have hs : DirectoriesStay now (now.perform (.makeDirectory location)) :=
      fun b hb => FileSystem.get?_perform_directory hb _
    refine h.change hs ?_ ?_ ?_
    · intro b entry hb _
      rw [hc, if_neg (FileSystem.ne_of_vacant hg hb), hb]
    · intro b hb
      obtain ⟨contents, hf⟩ := (h.temporary b hb).2
      exact ⟨.inl hb, contents, by rw [hc, if_neg (FileSystem.ne_of_vacant hg hf), hf]⟩
    · rintro b hb (hm | hn)
      · exact absurd hm hb
      · by_cases hbl : b = location
        · subst hbl
          refine .inr ⟨by rw [hc, if_pos rfl], ?_⟩
          rcases hp with ⟨target, htarget, ha⟩ | rfl
          · exact ⟨target, htarget, p, ha, hl _ hs (by rw [hc, if_pos rfl])⟩
          · simp [vacancy_here] at hv
        · exact .inl (by rw [hc, if_neg hbl, hn])

theorem makeDirectories_ensures {lineage : List Path} (refusal : FileSystem.Refusal)
    (hp : ∀ p ∈ lineage, IsSurrounding paths p) (h : Staged paths start now temporaries) :
    (FileSystem.makeDirectories refusal lineage).Ensures now fun _ later =>
      Staged paths start later temporaries := by
  induction lineage generalizing now with
  | nil => exact h
  | cons p above ih =>
      have hhead : IsSurrounding paths p := hp p (by simp)
      have hrest : ∀ q ∈ above, IsSurrounding paths q := fun q hq => hp q (by simp [hq])
      unfold FileSystem.makeDirectories
      split
      · exact h
      · refine Task.ensures_bind ((makeDirectory_ensures refusal hhead h).weaken ?_)
        intro result later hl
        split
        · exact hl
        · refine Task.ensures_bind ((ih hrest hl).weaken ?_)
          intro result later hl
          split
          · exact hl
          · refine Task.ensures_bind ((makeDirectory_ensures refusal hhead hl).weaken ?_)
            intro result later hl
            split
            · exact hl
            · exact hl
        · exact hl

/-! ## Files -/

theorem stage_ensures (host : Host) (ht : target ∈ paths) (text : String)
    (h : Staged paths start now temporaries) :
    (stage host paths target text).Ensures now fun
      | .error _, later => Staged paths start later temporaries
      | .ok location, later =>
          Staged paths start later (location :: temporaries) ∧
            IsTemporary paths location ∧ location ∉ temporaries := by
  have hd := makeDirectories_ensures host.refusal (fun _ hp => isSurrounding_of_mem ht hp) h
  refine Task.ensures_bind (hd.weaken ?_)
  intro result middle hm
  split
  · exact hm
  · have hmake := makeTemporary_ensures host paths target text.toUTF8
      ((parent target).join ⟨·⟩) middle
    refine Task.ensures_bind (hmake.with_stay.weaken ?_)
    rintro (fault | location) later ⟨ha, hs⟩
    · exact hm.congr ha
    · refine ⟨hm.add ha hs, ha.temporary, fun hmem => ?_⟩
      obtain ⟨contents, hf⟩ := (hm.temporary location hmem).2
      exact FileSystem.ne_of_vacant ha.vacant hf rfl

/-- The temporary files that staging makes, all or those before the first that fails, are on the
list; they are different from each other. -/
theorem stageAll_ensures {pairs : List (Path × String)} (host : Host)
    (hp : ∀ q ∈ pairs, q.1 ∈ paths) (h : Staged paths start now temporaries) :
    (stageAll host paths pairs).Ensures now fun
      | .error (_, made), later => Staged paths start later (made ++ temporaries)
      | .ok locations, later =>
          Staged paths start later (locations ++ temporaries) ∧ locations.Nodup ∧
            locations.length = pairs.length ∧
            ∀ b ∈ locations, IsTemporary paths b ∧ b ∉ temporaries := by
  induction pairs generalizing now temporaries with
  | nil => exact ⟨h, by simp⟩
  | cons pair rest ih =>
      obtain ⟨target, text⟩ := pair
      have hrest : ∀ q ∈ rest, q.1 ∈ paths := fun q hq => hp q (by simp [hq])
      have hstage := stage_ensures host (hp (target, text) (by simp)) text h
      unfold stageAll
      refine Task.ensures_bind (hstage.weaken ?_)
      rintro (fault | location) middle hm
      · exact hm
      · obtain ⟨hst, htemp, hfresh⟩ := hm
        refine Task.ensures_bind ((ih hrest hst).weaken ?_)
        rintro (⟨fault, made⟩ | locations) later hl
        · exact hl.of_mem_iff (by simp [or_left_comm])
        · obtain ⟨hstl, hnd, hlen, hall⟩ := hl
          refine ⟨hstl.of_mem_iff (by simp [or_left_comm]), ?_, by simp [hlen], ?_⟩
          · exact List.nodup_cons.2 ⟨fun hmem => (hall location hmem).2 (by simp), hnd⟩
          · intro b hb
            rcases List.mem_cons.1 hb with rfl | hb
            · exact ⟨htemp, hfresh⟩
            · exact ⟨(hall b hb).1, fun hmem => (hall b hb).2 (by simp [hmem])⟩

/-! ## Contents -/

theorem stage_holds (host : Host) (paths : List Path) (target : Path) (text : String)
    (now : FileSystem) :
    (stage host paths target text).Ensures now fun
      | .error _, _ => True
      | .ok location, later => later.get? location = some (.file text.toUTF8) := by
  refine Task.ensures_bind (Task.Ensures.of_forall fun result middle => ?_)
  split
  · trivial
  · have hmake := makeTemporary_ensures host paths target text.toUTF8
      ((parent target).join ⟨·⟩) middle
    refine Task.ensures_bind (hmake.weaken ?_)
    rintro (fault | location) later ha
    · trivial
    · exact (ha.get?_eq location).trans (if_pos rfl)

/-- When all is staged, each temporary file holds the text that was staged with its target: what
is staged after it leaves it as it is. -/
theorem stageAll_holds {pairs : List (Path × String)} (host : Host)
    (hp : ∀ q ∈ pairs, q.1 ∈ paths) (now : FileSystem) :
    (stageAll host paths pairs).Ensures now fun
      | .error _, _ => True
      | .ok locations, later =>
          List.Forall₂ (fun q b => later.get? b = some (.file q.2.toUTF8)) pairs locations := by
  induction pairs generalizing now with
  | nil => exact .nil
  | cons pair rest ih =>
      obtain ⟨target, text⟩ := pair
      have hrest : ∀ q ∈ rest, q.1 ∈ paths := fun q hq => hp q (by simp [hq])
      unfold stageAll
      refine Task.ensures_bind ((stage_holds host paths target text now).weaken ?_)
      rintro (fault | location) middle hm
      · trivial
      · have hkeep := stageAll_ensures host hrest (Staged.refl paths middle)
        refine Task.ensures_bind (((ih hrest middle).and hkeep).weaken ?_)
        rintro (⟨fault, made⟩ | locations) later ⟨hheld, hall⟩
        · trivial
        · exact .cons (hall.1.kept _ _ hm) hheld

/-! ## All files of a mock -/

variable {base : Path} {mock : Mock} {locations : List Location}

/-- The paths of the files of a mock below a base. -/
def pathsBelow (base : Path) (mock : Mock) : List Path :=
  mock.files.map fun file => base.join ⟨file.path⟩

theorem resolve_eq_ok {base target : Path} {path : String}
    (h : resolve base path = .ok target) : target = base.join ⟨path⟩ := by
  unfold resolve at h
  split at h
  · simp at h
  · split at h
    · rw [Except.ok.injEq] at h
      exact h.symm
    · simp at h

theorem targets_eq_ok {base : Path} {before : List Path} {files : List MockFile}
    (h : targets base before files = .ok paths) :
    paths = before ++ files.map fun file => base.join ⟨file.path⟩ := by
  induction files generalizing before with
  | nil =>
      rw [targets, Except.ok.injEq] at h
      simp [h]
  | cons file rest ih =>
      unfold targets at h
      split at h
      · simp at h
      · next target ht =>
        split at h
        · simp at h
        · rw [ih h, resolve_eq_ok ht, List.append_assoc]
          rfl

/-- Every file of a mock has a temporary file of its own that holds its whole content, and nothing
else has changed but that directories above targets are there. -/
structure AllStaged (base : Path) (mock : Mock) (start now : FileSystem)
    (locations : List Location) : Prop where
  staged : Staged (pathsBelow base mock) start now locations
  held : List.Forall₂ (fun file b => now.get? b = some (.file file.content.toUTF8))
    mock.files locations
  nodup : locations.Nodup
  temporary : ∀ b ∈ locations, IsTemporary (pathsBelow base mock) b

theorem stageAll_stages (host : Host) (base : Path) (mock : Mock) (start : FileSystem) :
    (stageAll host (pathsBelow base mock)
      ((pathsBelow base mock).zip (mock.files.map MockFile.content))).Ensures start fun
        | .error (_, made), now => Staged (pathsBelow base mock) start now made
        | .ok locations, now => AllStaged base mock start now locations := by
  have hp : ∀ q ∈ (pathsBelow base mock).zip (mock.files.map MockFile.content),
      q.1 ∈ pathsBelow base mock := fun q hq => (List.of_mem_zip hq).1
  have hstage := stageAll_ensures host hp (Staged.refl _ start)
  refine (hstage.and (stageAll_holds host hp start)).weaken ?_
  rintro (⟨fault, made⟩ | locations) now ⟨h, hheld⟩
  · exact Staged.of_mem_iff h (by simp)
  · obtain ⟨hst, hnd, -, hall⟩ := h
    refine ⟨hst.of_mem_iff (by simp), ?_, hnd, fun b hb => (hall b hb).1⟩
    rw [pathsBelow, List.zip_map'] at hheld
    exact List.forall₂_map_left_iff.1 hheld

/-- The staged files, each with the path to which it moves. -/
theorem AllStaged.map_zip (h : AllStaged base mock start now locations) :
    (locations.zip (pathsBelow base mock)).map (·.1) = locations := by
  refine List.map_fst_zip ?_
  rw [pathsBelow, List.length_map, h.held.length_eq]

end MockForge.Writer

import MockForge.Proofs.FileSystem.Above
import MockForge.Proofs.Writer.Atomicity

/-!
# What a write leaves

When all moves succeed, each target holds what was staged last for it. `Written` says what a whole
write leaves.
-/

namespace MockForge.Writer

open FileSystem (DirectoriesStay)

variable {paths : List Path} {backups locations : List Location}
  {start middle now later : FileSystem} {base : Path} {mock : Mock}

/-! ## Last files -/

/-- The pair that is moved for a file, and those that are moved after it. -/
theorem zip_of_split {R : MockFile → Location → Prop} {before after : List MockFile}
    {file : MockFile} (f : MockFile → Path)
    (h : List.Forall₂ R (before ++ file :: after) locations) :
    ∃ b earlier others, R file b ∧
      locations.zip ((before ++ file :: after).map f) = earlier ++ (b, f file) :: others ∧
      ∀ r ∈ others, r.2 ∈ after.map f := by
  induction before generalizing locations with
  | nil =>
      cases h with
      | cons hfile hafter => exact ⟨_, [], _, hfile, rfl, fun r hr => (List.of_mem_zip hr).2⟩
  | cons first before ih =>
      cases h with
      | @cons _ b _ locations hfirst hrest =>
          obtain ⟨b', earlier, others, hfile, hzip, hothers⟩ := ih hrest
          refine ⟨b', (b, f first) :: earlier, others, hfile, ?_, hothers⟩
          rw [List.cons_append, List.map_cons, List.zip_cons_cons, hzip, List.cons_append]

/-- The file at a location is the one of the mock that leads there last. -/
def IsLast (base : Path) (mock : Mock) (fs : FileSystem) (location : Location)
    (file : MockFile) : Prop :=
  ∃ before after, mock.files = before ++ file :: after ∧
    fs.locate (base.join ⟨file.path⟩) = .ok location ∧
    ∀ other ∈ after, fs.locate (base.join ⟨other.path⟩) ≠ .ok location

private theorem exists_last {α : Type} {p : α → Prop} {items : List α} {a : α} (ha : a ∈ items)
    (hp : p a) : ∃ before last after, items = before ++ last :: after ∧ p last ∧
      ∀ other ∈ after, ¬p other := by
  induction items generalizing a with
  | nil => cases ha
  | cons first rest ih =>
      by_cases hr : ∃ other ∈ rest, p other
      · obtain ⟨other, ho, hpo⟩ := hr
        obtain ⟨before, last, after, rfl, hlast, hafter⟩ := ih ho hpo
        exact ⟨first :: before, last, after, rfl, hlast, hafter⟩
      · rcases List.mem_cons.1 ha with rfl | ha
        · exact ⟨[], a, rest, rfl, hp, fun other ho hpo => hr ⟨other, ho, hpo⟩⟩
        · exact absurd ⟨a, ha, hp⟩ hr

/-- Where several files of a mock lead to one location, one of them is the last. -/
theorem exists_isLast {fs : FileSystem} {path : Path} {b : Location}
    (hp : path ∈ pathsBelow base mock) (hb : fs.locate path = .ok b) :
    ∃ file, IsLast base mock fs b file := by
  obtain ⟨file, hf, rfl⟩ := List.mem_map.1 hp
  let Leads (file : MockFile) : Prop := fs.locate (base.join ⟨file.path⟩) = .ok b
  obtain ⟨before, last, after, hsplit, hlast, hafter⟩ := exists_last (p := Leads) hf hb
  exact ⟨last, before, after, hsplit, hlast, hafter⟩

/-! ## The whole -/

/-- The files of a mock are where they belong, and nothing else has changed but that directories
above them are there. -/
structure Written (base : Path) (mock : Mock) (start now : FileSystem) : Prop where
  located : ∀ path ∈ pathsBelow base mock, ∃ b, now.locate path = .ok b
  last : ∀ b file, IsLast base mock now b file → now.get? b = some (.file file.content.toUTF8)
  other : ∀ b, (∀ path ∈ pathsBelow base mock, now.locate path ≠ .ok b) →
    now.get? b = start.get? b ∨
      start.get? b = none ∧ now.get? b = some .directory ∧ IsAbove (pathsBelow base mock) now b

theorem IsAbove.of_stay {b : Location} (h : IsAbove paths now b) (hs : DirectoriesStay now later) :
    IsAbove paths later b := by
  obtain ⟨target, ht, above, ha, hl⟩ := h
  exact ⟨target, ht, above, ha, FileSystem.locate_of_stay hs hl⟩

/-- Nothing was where a staged file is, nor where nothing is when all is staged. -/
theorem Staged.vacant (h : Staged paths start now locations) {b : Location}
    (hor : b ∈ locations ∨ now.get? b = none) : start.get? b = none := by
  rcases hor with hl | hn
  · exact (h.temporary b hl).1
  · cases hg : start.get? b with
    | none => rfl
    | some entry =>
        rw [h.kept b entry hg] at hn
        cases hn

/-- Each file of a mock has its place in the moves. -/
theorem AllStaged.locate_ok (h : AllStaged base mock start middle locations)
    (hplaced : Placed (pathsBelow base mock) middle now
      (locations.zip (pathsBelow base mock)) backups) {path : Path}
    (hpath : path ∈ pathsBelow base mock) : ∃ b, now.locate path = .ok b := by
  obtain ⟨file, hf, rfl⟩ := List.mem_map.1 hpath
  obtain ⟨before, after, hsplit⟩ := List.append_of_mem hf
  obtain ⟨staged, earlier, others, -, hzip, -⟩ :=
    zip_of_split (fun file => base.join ⟨file.path⟩) (hsplit ▸ h.held)
  refine hplaced.located (staged, base.join ⟨file.path⟩) ?_
  rw [pathsBelow, hsplit, hzip]
  simp

theorem AllStaged.get?_of_isLast (h : AllStaged base mock start middle locations)
    (hplaced : Placed (pathsBelow base mock) middle now
      (locations.zip (pathsBelow base mock)) backups) {b : Location} {file : MockFile}
    (hlast : IsLast base mock now b file) : now.get? b = some (.file file.content.toUTF8) := by
  obtain ⟨before, after, hsplit, hb, ha⟩ := hlast
  obtain ⟨staged, earlier, others, hfile, hzip, hothers⟩ :=
    zip_of_split (fun file => base.join ⟨file.path⟩) (hsplit ▸ h.held)
  have hpairs : locations.zip (pathsBelow base mock) =
      earlier ++ (staged, base.join ⟨file.path⟩) :: others := by rw [pathsBelow, hsplit, hzip]
  rw [hplaced.last earlier _ others b hpairs hb ?_, hfile]
  intro r hr
  obtain ⟨other, ho, he⟩ := List.mem_map.1 (hothers r hr)
  rw [← he]
  exact ha other ho

/-- Away from the targets, what is not as it was is a directory. -/
theorem AllStaged.get?_of_other (h : AllStaged base mock start middle locations)
    (hplaced : Placed (pathsBelow base mock) middle now
      (locations.zip (pathsBelow base mock)) backups) {b : Location} (hn : b ∉ backups)
    (hb : ∀ path ∈ pathsBelow base mock, now.locate path ≠ .ok b) :
    now.get? b = start.get? b ∨
      start.get? b = none ∧ now.get? b = some .directory ∧
        IsAbove (pathsBelow base mock) middle b := by
  have hget := hplaced.other b hn fun q hq => hb q.2 (List.of_mem_zip hq).2
  rw [h.map_zip] at hget
  by_cases hl : b ∈ locations
  · rw [if_pos hl] at hget
    exact .inl (hget.trans (h.staged.vacant (.inl hl)).symm)
  · rw [if_neg hl] at hget
    cases hg : start.get? b with
    | some entry => exact .inl (hget.trans (h.staged.kept b entry hg))
    | none =>
        rcases h.staged.new b hl hg with hm | ⟨hm, habove⟩
        · exact .inl (hget.trans hm)
        · exact .inr ⟨rfl, hget.trans hm, habove⟩

/-- What is left when the backups of a placing are discarded. -/
theorem AllStaged.written (h : AllStaged base mock start middle locations)
    (hplaced : Placed (pathsBelow base mock) middle now
      (locations.zip (pathsBelow base mock)) backups)
    (hsm : DirectoriesStay middle now) (hs : DirectoriesStay now later)
    (hd : ∀ b, later.get? b = if b ∈ backups then none else now.get? b) :
    Written base mock start later := by
  have hback {path : Path} {b : Location} (hpath : path ∈ pathsBelow base mock)
      (hl : later.locate path = .ok b) : now.locate path = .ok b := by
    obtain ⟨b', hb'⟩ := h.locate_ok hplaced hpath
    rw [← hl, FileSystem.locate_of_stay hs hb', hb']
  refine ⟨?_, ?_, ?_⟩
  · intro path hpath
    obtain ⟨b, hb⟩ := h.locate_ok hplaced hpath
    exact ⟨b, FileSystem.locate_of_stay hs hb⟩
  · rintro b file ⟨before, after, hsplit, hb, ha⟩
    have hpath : base.join ⟨file.path⟩ ∈ pathsBelow base mock :=
      List.mem_map.2 ⟨file, by simp [hsplit], rfl⟩
    have hlast : IsLast base mock now b file :=
      ⟨before, after, hsplit, hback hpath hb, fun other ho hl =>
        ha other ho (FileSystem.locate_of_stay hs hl)⟩
    rw [hd, if_neg, h.get?_of_isLast hplaced hlast]
    exact fun hbackup => (hplaced.backup b hbackup).1.locate_ne hpath hb
  · intro b hb
    rw [hd]
    by_cases hbackup : b ∈ backups
    · have hor := (hplaced.backup b hbackup).2.1
      rw [h.map_zip] at hor
      rw [if_pos hbackup, h.staged.vacant hor]
      exact .inl rfl
    · rw [if_neg hbackup]
      rcases h.get?_of_other hplaced hbackup fun path hpath hl =>
        hb path hpath (FileSystem.locate_of_stay hs hl) with hget | ⟨hg, hdir, habove⟩
      · exact .inl hget
      · exact .inr ⟨hg, hdir, habove.of_stay (hsm.trans hs)⟩

theorem write_written (writer : Writer) (mock : Mock) (start : FileSystem) :
    (writer.write mock).Ensures start fun
      | .error _, _ => True
      | .ok paths, now =>
          paths = pathsBelow writer.base mock ∧ Written writer.base mock start now := by
  unfold write
  split
  · trivial
  · next paths htargets =>
    obtain rfl : paths = pathsBelow writer.base mock := targets_eq_ok htargets
    refine Task.ensures_bind ((stageAll_stages writer.host writer.base mock start).weaken ?_)
    rintro (⟨fault, made⟩ | locations) middle hm
    · trivial
    · refine Task.ensures_bind ((hm.placeAll writer.host).with_stay.weaken ?_)
      rintro (⟨fault, left⟩ | backups) now ⟨hplaced, hsm⟩
      · trivial
      · have hfile : ∀ b ∈ backups, now.get? b ≠ some .directory := by
          intro b hb
          obtain ⟨-, -, contents, hg⟩ := hplaced.backup b hb
          simp [hg]
        refine Task.ensures_bind ((Writer.discard_ensures hfile).with_stay.weaken ?_)
        rintro _ later ⟨hd, hs⟩
        exact ⟨rfl, hm.written hplaced hsm hs hd⟩

/-- All directories are old ones and those above the targets. -/
theorem Written.directory_iff (h : Written base mock start now) (hs : DirectoriesStay start now)
    (b : Location) : now.get? b = some .directory ↔
      start.get? b = some .directory ∨ IsAbove (pathsBelow base mock) now b := by
  constructor
  · intro hd
    have hb : ∀ path ∈ pathsBelow base mock, now.locate path ≠ .ok b := by
      intro path hp hb
      obtain ⟨file, hlast⟩ := exists_isLast hp hb
      rw [h.last b file hlast] at hd
      cases hd
    rcases h.other b hb with hg | ⟨-, -, habove⟩
    · exact .inl (hg ▸ hd)
    · exact .inr habove
  · rintro (hd | ⟨path, hp, above, ha, hb⟩)
    · exact hs hd
    · obtain ⟨location, hl⟩ := h.located path hp
      exact FileSystem.get?_of_parents ha hl hb

/-- A write that succeeds gives the paths of the files of the mock. Each leads to a file that holds
the whole content of the last file of the mock that belongs there. No other file is changed, made
or taken away, and the new directories are those above the targets. -/
theorem success_leaves (writer : Writer) (mock : Mock) (fs : FileSystem) (paths : List Path)
    (h : (writer.write mock fs).value = .ok paths) :
    paths = pathsBelow writer.base mock ∧
    (∀ path ∈ paths, ∃ location file,
      (writer.write mock fs).files.locate path = .ok location ∧
      IsLast writer.base mock (writer.write mock fs).files location file ∧
      (writer.write mock fs).files.get? location = some (.file file.content.toUTF8)) ∧
    (∀ location contents,
      (∀ path ∈ paths, (writer.write mock fs).files.locate path ≠ .ok location) →
      ((writer.write mock fs).files.get? location = some (.file contents) ↔
        fs.get? location = some (.file contents))) ∧
    (∀ location, (writer.write mock fs).files.get? location = some .directory ↔
      fs.get? location = some .directory ∨
        IsAbove paths (writer.write mock fs).files location) ∧
    ∀ path ∈ paths, ∀ above ∈ path.parents,
      ∃ location, (writer.write mock fs).files.directory above = .ok location := by
  have hw := write_written writer mock fs
  unfold Task.Ensures at hw
  rw [h] at hw
  obtain ⟨rfl, hw⟩ := hw
  refine ⟨rfl, ?_, ?_, hw.directory_iff ((writer.write mock).stay fs), ?_⟩
  · intro path hp
    obtain ⟨location, hl⟩ := hw.located path hp
    obtain ⟨file, hlast⟩ := exists_isLast hp hl
    exact ⟨location, file, hl, hlast, hw.last location file hlast⟩
  · intro location contents hb
    rcases hw.other location hb with hg | ⟨hg, hd, -⟩
    · rw [hg]
    · simp [hg, hd]
  · intro path hp above ha
    obtain ⟨location, hl⟩ := hw.located path hp
    exact FileSystem.directory_of_parents ha hl

/-- A directory with an old header. -/
def outdated : FileSystem :=
  [FileSystem.Operation.makeDirectory ["out"],
    .createFile ["Mockuart.h", "out"],
    .fill ["Mockuart.h", "out"] "old".toUTF8].foldl FileSystem.perform .empty

/-- The header is replaced, and the source gets a directory of its own. -/
theorem new_header_takes_place :
    (write ⟨⟨"out"⟩, .counting⟩
        ⟨⟨"Mockuart"⟩, [⟨"Mockuart.h", "new"⟩, ⟨"src/Mockuart.c", "new"⟩]⟩ outdated).value =
      .ok [⟨"out/Mockuart.h"⟩, ⟨"out/src/Mockuart.c"⟩] ∧
    (∃ location, (write ⟨⟨"out"⟩, .counting⟩
        ⟨⟨"Mockuart"⟩, [⟨"Mockuart.h", "new"⟩, ⟨"src/Mockuart.c", "new"⟩]⟩
        outdated).files.get? location = some (.file "new".toUTF8)) ∧
    (write ⟨⟨"out"⟩, .counting⟩
        ⟨⟨"Mockuart"⟩, [⟨"Mockuart.h", "new"⟩, ⟨"src/Mockuart.c", "new"⟩]⟩
        outdated).files.get? ["src", "out"] = some .directory := by
  have hok : (write ⟨⟨"out"⟩, .counting⟩
      ⟨⟨"Mockuart"⟩, [⟨"Mockuart.h", "new"⟩, ⟨"src/Mockuart.c", "new"⟩]⟩ outdated).value =
      .ok [⟨"out/Mockuart.h"⟩, ⟨"out/src/Mockuart.c"⟩] := by decide +kernel
  obtain ⟨-, hfiles, -, hdirectories, -⟩ := success_leaves _ _ _ _ hok
  refine ⟨hok, ?_, (hdirectories _).2 (.inr ?_)⟩
  · obtain ⟨location, file, -, ⟨before, after, hsplit, -⟩, hg⟩ :=
      hfiles ⟨"out/Mockuart.h"⟩ (by simp)
    have hmem : file ∈ before ++ file :: after := by simp
    rw [← hsplit] at hmem
    simp only [List.mem_cons, List.not_mem_nil, or_false] at hmem
    rcases hmem with rfl | rfl <;> exact ⟨location, hg⟩
  · exact ⟨⟨"out/src/Mockuart.c"⟩, by simp, ⟨"out/src"⟩, by decide +kernel, by decide +kernel⟩

end MockForge.Writer

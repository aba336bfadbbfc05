import MockForge.Proofs.Writer.Success

/-!
# Writing a mock again

A mock that was written can be written once more: its directories are there, and where its files
go there are files. The second write replaces each of these by what it is. Main statement:
`written_again_unchanged`.
-/

namespace MockForge.Writer

open FileSystem (DirectoriesStay)

variable {base : Path} {mock : Mock} {host : Host} {target : Path}
  {start now later : FileSystem}

/-! ## Nothing changes -/

/-- The directories above the targets are there. -/
theorem Written.directory_of_isAbove (h : Written base mock start now) {b : Location}
    (ha : IsAbove (pathsBelow base mock) later b) : now.get? b = some .directory := by
  obtain ⟨path, hp, above, habove, hl⟩ := ha
  obtain ⟨location, hlocation⟩ := h.located path hp
  obtain ⟨place, hplace⟩ := FileSystem.directory_of_parents habove hlocation
  have hsame : b = place := by
    rw [FileSystem.locate_eq_leadsTo hl, FileSystem.directory_eq_leadsTo hplace]
  rw [hsame]
  exact FileSystem.directory_eq_ok hplace

/-- The last file of a mock for its place is the last one for good. -/
theorem Written.isLast_of_stay (h : Written base mock start now) (hs : DirectoriesStay now later)
    {b : Location} {file : MockFile} (hl : IsLast base mock later b file) :
    IsLast base mock now b file := by
  obtain ⟨before, after, hsplit, hfile, hafter⟩ := hl
  obtain ⟨location, hlocation⟩ := h.located (base.join ⟨file.path⟩)
    (List.mem_map.2 ⟨file, by simp [hsplit], rfl⟩)
  have hsame := (FileSystem.locate_of_stay hs hlocation).symm.trans hfile
  rw [Except.ok.injEq] at hsame
  rw [hsame] at hlocation
  exact ⟨before, after, hsplit, hlocation, fun other ho hother =>
    hafter other ho (FileSystem.locate_of_stay hs hother)⟩

/-- What is written twice is as it was after the first time. -/
theorem Written.get?_again (h : Written base mock start now) (ha : Written base mock now later)
    (hs : DirectoriesStay now later) (b : Location) : later.get? b = now.get? b := by
  by_cases hb : ∀ path ∈ pathsBelow base mock, later.locate path ≠ .ok b
  · rcases ha.other b hb with hsame | ⟨hn, -, habove⟩
    · exact hsame
    · rw [h.directory_of_isAbove habove] at hn
      cases hn
  · simp only [not_forall, not_not] at hb
    obtain ⟨path, hp, hl⟩ := hb
    obtain ⟨file, hlast⟩ := exists_isLast hp hl
    rw [ha.last b file hlast, h.last b file (h.isLast_of_stay hs hlast)]

/-- A write that fails leaves a mock that was written as it was. -/
theorem Written.get?_of_staged (h : Written base mock start now)
    (hst : Staged (pathsBelow base mock) now later []) (b : Location) :
    later.get? b = now.get? b := by
  cases hg : now.get? b with
  | some entry => exact hst.kept b entry hg
  | none =>
      rcases hst.new b List.not_mem_nil hg with hn | ⟨-, habove⟩
      · exact hn
      · rw [h.directory_of_isAbove habove] at hg
        cases hg

/-! ## Nothing is in the way -/

theorem surroundings_eq_cons (target : Path) :
    ∃ above, surroundings target = parent target :: above := by
  unfold parent
  cases hs : surroundings target with
  | nil =>
      unfold surroundings at hs
      split at hs
      · cases hs
      · next hne => exact absurd hs hne
  | cons first above => exact ⟨above, rfl⟩

/-- In a directory that is there a text can be staged. -/
theorem stage_ensures_there {place : Location} (hr : host.refusal = .never)
    (hd : start.directory (parent target) = .ok place) (paths : List Path) (text : String) :
    (stage host paths target text).Ensures start fun result _ => ∃ b, result = .ok b := by
  obtain ⟨above, hsurroundings⟩ := surroundings_eq_cons target
  have hmade : (FileSystem.makeDirectories host.refusal (surroundings target)).Ensures start
      fun result later => result = .ok () ∧ later = start := by
    rw [hsurroundings]
    exact FileSystem.makeDirectories_ensures_there host.refusal hd
  refine Task.ensures_bind (hmade.weaken ?_)
  rintro result middle ⟨rfl, rfl⟩
  have hmake := makeTemporary_ensures_ok hr hd paths text.toUTF8 ((parent target).join ⟨·⟩)
  refine Task.ensures_bind (hmake.weaken ?_)
  rintro result now ⟨b, rfl⟩
  exact ⟨b, rfl⟩

theorem stageAll_ensures_there {pairs : List (Path × String)} (hr : host.refusal = .never)
    (hd : ∀ q ∈ pairs, ∃ place, start.directory (parent q.1) = .ok place) (paths : List Path) :
    (stageAll host paths pairs).Ensures start fun result _ =>
      ∃ locations, result = .ok locations := by
  induction pairs generalizing start with
  | nil => exact ⟨[], rfl⟩
  | cons pair rest ih =>
      obtain ⟨target, text⟩ := pair
      obtain ⟨⟨place, hplace⟩, hrest⟩ := List.forall_mem_cons.1 hd
      unfold stageAll
      refine Task.ensures_bind ((stage_ensures_there hr hplace paths text).with_stay.weaken ?_)
      rintro result middle ⟨⟨location, rfl⟩, hs⟩
      have hmiddle : ∀ q ∈ rest, ∃ place, middle.directory (parent q.1) = .ok place := by
        intro q hq
        obtain ⟨place, hplace⟩ := hrest q hq
        exact ⟨place, FileSystem.directory_of_stay hs hplace⟩
      refine Task.ensures_bind ((ih hmiddle).weaken ?_)
      rintro result later ⟨locations, rfl⟩
      exact ⟨_, rfl⟩

/-- A file is where each file of the mock goes, and it stays there while all is staged. -/
theorem Written.destination (h : Written base mock start now) {locations : List Location}
    (hst : Staged (pathsBelow base mock) now later locations) {path : Path}
    (hp : path ∈ pathsBelow base mock) : ∃ b, later.destination path = .ok b := by
  obtain ⟨file, hf, rfl⟩ := List.mem_map.1 hp
  obtain ⟨contents, hl, hg⟩ := h.get?_placeOf hf
  have hs : DirectoriesStay now later := fun b hb => hst.kept b _ hb
  exact ⟨_, FileSystem.destination_of_file (FileSystem.locate_of_stay hs hl) (hst.kept _ _ hg)⟩

/-- A mock that was written is written again, as long as nothing is refused. -/
theorem Written.write_ok (h : Written base mock start now) (hflawless : Flawless base mock.files)
    (hr : host.refusal = .never) :
    (write ⟨base, host⟩ mock).Ensures now fun result _ => result = .ok (pathsBelow base mock) := by
  have hparents : ∀ q ∈ (pathsBelow base mock).zip (mock.files.map MockFile.content),
      ∃ place, now.directory (parent q.1) = .ok place := by
    intro q hq
    obtain ⟨location, hl⟩ := h.located q.1 (List.of_mem_zip hq).1
    exact FileSystem.directory_parent hl
  have hstage := stageAll_ensures_there hr hparents (pathsBelow base mock)
  unfold write
  rw [hflawless.targets_eq]
  refine Task.ensures_bind ((hstage.and (stageAll_stages host base mock now)).weaken ?_)
  rintro result middle ⟨⟨locations, rfl⟩, hall⟩
  have hplace := placeAll_ensures_ok hr (fun q hq => (List.of_mem_zip hq).2) hall.waiting
    fun q hq => h.destination hall.staged (List.of_mem_zip hq).2
  refine Task.ensures_bind (hplace.weaken ?_)
  rintro result last ⟨backups, rfl⟩
  refine Task.ensures_bind (Task.Ensures.of_forall fun _ _ => ?_)
  exact Task.ensures_bind rfl

/-! ## The whole -/

/-- Once a mock is written, another write of it changes nothing at all, whatever the system refuses;
and where the system refuses nothing, it succeeds and gives the same paths. -/
theorem written_again_unchanged (writer : Writer) (again : Host) (mock : Mock) (fs : FileSystem)
    (paths : List Path) (h : (writer.write mock fs).value = .ok paths) :
    (again.refusal = .never →
      (write ⟨writer.base, again⟩ mock (writer.write mock fs).files).value = .ok paths) ∧
    ∀ location, (write ⟨writer.base, again⟩ mock (writer.write mock fs).files).files.get? location =
      (writer.write mock fs).files.get? location := by
  have hflawless := flawless_of_write_ok h
  have hw := write_written writer mock fs
  unfold Task.Ensures at hw
  rw [h] at hw
  obtain ⟨rfl, hw⟩ := hw
  refine ⟨fun hr => hw.write_ok hflawless hr, ?_⟩
  intro location
  have hfailed := write_ensures ⟨writer.base, again⟩ mock (writer.write mock fs).files
  have hwritten := write_written ⟨writer.base, again⟩ mock (writer.write mock fs).files
  unfold Task.Ensures at hfailed hwritten
  cases hv : (write ⟨writer.base, again⟩ mock (writer.write mock fs).files).value with
  | error fault =>
      rw [hv] at hfailed
      exact hw.get?_of_staged hfailed location
  | ok paths =>
      rw [hv] at hwritten
      exact hw.get?_again hwritten.2 ((write ⟨writer.base, again⟩ mock).stay _) location

/-- The first write makes directories and replaces a header, the second one replaces both files. -/
theorem header_and_source_written_again :
    (write ⟨⟨"spare/../out"⟩, .counting⟩
        ⟨⟨"Mockuart"⟩, [⟨"Mockuart.h", "new"⟩, ⟨"src/Mockuart.c", "new"⟩]⟩ outdated).value =
      .ok [⟨"spare/../out/Mockuart.h"⟩, ⟨"spare/../out/src/Mockuart.c"⟩] ∧
    (write ⟨⟨"spare/../out"⟩, .counting⟩
        ⟨⟨"Mockuart"⟩, [⟨"Mockuart.h", "new"⟩, ⟨"src/Mockuart.c", "new"⟩]⟩
        (write ⟨⟨"spare/../out"⟩, .counting⟩
          ⟨⟨"Mockuart"⟩, [⟨"Mockuart.h", "new"⟩, ⟨"src/Mockuart.c", "new"⟩]⟩
          outdated).files).value =
      .ok [⟨"spare/../out/Mockuart.h"⟩, ⟨"spare/../out/src/Mockuart.c"⟩] ∧
    (write ⟨⟨"spare/../out"⟩, .counting⟩
        ⟨⟨"Mockuart"⟩, [⟨"Mockuart.h", "new"⟩, ⟨"src/Mockuart.c", "new"⟩]⟩
        (write ⟨⟨"spare/../out"⟩, .counting⟩
          ⟨⟨"Mockuart"⟩, [⟨"Mockuart.h", "new"⟩, ⟨"src/Mockuart.c", "new"⟩]⟩
          outdated).files).files.get? ["Mockuart.h", "out"] = some (.file "new".toUTF8) := by
  have hok : (write ⟨⟨"spare/../out"⟩, .counting⟩
      ⟨⟨"Mockuart"⟩, [⟨"Mockuart.h", "new"⟩, ⟨"src/Mockuart.c", "new"⟩]⟩ outdated).value =
      .ok [⟨"spare/../out/Mockuart.h"⟩, ⟨"spare/../out/src/Mockuart.c"⟩] := by decide +kernel
  have hheader : (write ⟨⟨"spare/../out"⟩, .counting⟩
      ⟨⟨"Mockuart"⟩, [⟨"Mockuart.h", "new"⟩, ⟨"src/Mockuart.c", "new"⟩]⟩ outdated).files.get?
      ["Mockuart.h", "out"] = some (.file "new".toUTF8) := by decide +kernel
  obtain ⟨hagain, hsame⟩ := written_again_unchanged _ .counting _ _ _ hok
  exact ⟨hok, hagain rfl, (hsame _).trans hheader⟩

end MockForge.Writer

import MockForge.Proofs.Writer.Placing
import MockForge.Proofs.Writer.Staging

/-!
# All or nothing

A write that fails leaves every file as it was and no file that was not there, whatever refused it
and at whichever step.
-/

namespace MockForge.Writer

open FileSystem (DirectoriesStay)

variable {paths : List Path} {start middle now : FileSystem}

/-! ## Placing what is staged -/

section AllStaged

variable {base : Path} {mock : Mock} {locations : List Location}

theorem AllStaged.waiting (h : AllStaged base mock start now locations) :
    Waiting (pathsBelow base mock) now ((locations.zip (pathsBelow base mock)).map (·.1)) := by
  rw [h.map_zip]
  exact ⟨h.nodup, h.temporary, fun b hb => (h.staged.temporary b hb).2⟩

theorem AllStaged.placeAll (h : AllStaged base mock start now locations) (host : Host) :
    (placeAll host (pathsBelow base mock) (locations.zip (pathsBelow base mock))).Ensures now fun
      | .error (_, left), later => Undone now later locations left
      | .ok backups, later =>
          Placed (pathsBelow base mock) now later (locations.zip (pathsBelow base mock))
            backups := by
  have hplace := placeAll_ensures host (fun q hq => (List.of_mem_zip hq).2) h.waiting
  rwa [h.map_zip] at hplace

end AllStaged

/-! ## The whole -/

/-- What an undone placing leaves is what staging left, with other temporary files. -/
theorem Staged.undone {staged left : List Location} (h : Staged paths start middle staged)
    (hs : DirectoriesStay middle now) (hu : Undone middle now staged left) :
    Staged paths start now left := by
  refine h.change hs ?_ hu.temporary ?_
  · intro b entry hb hm
    have hl : b ∉ left := by
      intro hl
      rcases (hu.temporary b hl).1 with hst | hv
      · exact hm hst
      · exact FileSystem.ne_of_vacant hv hb rfl
    rw [hu.restored b hl, if_neg hm, hb]
  · intro b hb hor
    rw [hu.restored b hb]
    split
    · exact .inl rfl
    · next hm => exact .inl (hor.resolve_left hm)

/-- Discarding the temporary files of a staging leaves none. -/
theorem Staged.discard_ensures {temporaries : List Location}
    (h : Staged paths start middle temporaries) :
    (Writer.discard temporaries).Ensures middle fun _ now => Staged paths start now [] := by
  have hd : ∀ b ∈ temporaries, middle.get? b ≠ some .directory := by
    intro b hb
    obtain ⟨contents, hf⟩ := (h.temporary b hb).2
    simp [hf]
  refine (Writer.discard_ensures hd).with_stay.weaken ?_
  rintro _ now ⟨hnow, hs⟩
  exact h.discard hs hnow

/-- Once all temporary files are gone, the files are those that there were. -/
theorem Staged.file_iff (h : Staged paths start now []) (location : Location)
    (contents : ByteArray) :
    now.get? location = some (.file contents) ↔ start.get? location = some (.file contents) := by
  constructor
  · intro hn
    cases hg : start.get? location with
    | some entry => rw [← h.kept location entry hg, hn]
    | none =>
        rcases h.new location (List.not_mem_nil) hg with hv | ⟨hd, -⟩
        · rw [hv] at hn
          cases hn
        · rw [hd] at hn
          cases hn
  · exact h.kept location _

/-- A failed write leaves nothing but directories above its targets. -/
theorem write_ensures (writer : Writer) (mock : Mock) (start : FileSystem) :
    (writer.write mock).Ensures start fun
      | .error _, now => Staged (pathsBelow writer.base mock) start now []
      | .ok _, _ => True := by
  unfold write
  split
  · exact Staged.refl _ start
  · next paths htargets =>
    obtain rfl : paths = pathsBelow writer.base mock := targets_eq_ok htargets
    refine Task.ensures_bind ((stageAll_stages writer.host writer.base mock start).weaken ?_)
    rintro (⟨fault, made⟩ | locations) middle hm
    · exact Task.ensures_bind hm.discard_ensures
    · refine Task.ensures_bind ((hm.placeAll writer.host).with_stay.weaken ?_)
      rintro (⟨fault, left⟩ | backups) now ⟨hu, hs⟩
      · exact Task.ensures_bind (hm.staged.undone hs hu).discard_ensures
      · trivial

/-- A write that fails changes no file and makes none, and it takes away no directory. All that can
be new are directories above the places where files of the mock were to go. -/
theorem all_or_nothing (writer : Writer) (mock : Mock) (fs : FileSystem) (fault : WriteFault)
    (h : (writer.write mock fs).value = .error fault) :
    (∀ location contents,
      (writer.write mock fs).files.get? location = some (.file contents) ↔
        fs.get? location = some (.file contents)) ∧
    (∀ location, fs.get? location = some .directory →
      (writer.write mock fs).files.get? location = some .directory) ∧
    ∀ location entry, fs.get? location = none →
      (writer.write mock fs).files.get? location = some entry →
      entry = .directory ∧ ∃ file ∈ mock.files,
        ∃ above ∈ (writer.base.join ⟨file.path⟩).parents,
          (writer.write mock fs).files.locate above = .ok location := by
  have hw := write_ensures writer mock fs
  unfold Task.Ensures at hw
  rw [h] at hw
  refine ⟨fun location contents => ⟨fun hl => ?_, hw.kept _ _⟩, fun _ => hw.kept _ _, ?_⟩
  · cases hg : fs.get? location with
    | some entry => rw [← hw.kept _ _ hg, hl]
    | none =>
        rcases hw.new location (by simp) hg with hn | ⟨hn, -⟩ <;> simp [hn] at hl
  · intro location entry hg hl
    rcases hw.new location (by simp) hg with hn | ⟨hd, target, ht, above, ha, hloc⟩
    · simp [hn] at hl
    · rw [hd, Option.some.injEq] at hl
      obtain ⟨file, hf, rfl⟩ := List.mem_map.1 ht
      exact ⟨hl.symm, file, hf, above, ha, hloc⟩

/-- A directory with an old header, in which a directory is in the way of the source. -/
def obstructed : FileSystem :=
  [FileSystem.Operation.makeDirectory ["out"],
    .createFile ["Mockuart.h", "out"],
    .fill ["Mockuart.h", "out"] "old".toUTF8,
    .makeDirectory ["Mockuart.c", "out"]].foldl FileSystem.perform .empty

/-- The header is replaced before the source fails, and it comes back. -/
theorem old_header_comes_back :
    (write ⟨⟨"out"⟩, .counting⟩
        ⟨⟨"Mockuart"⟩, [⟨"Mockuart.h", "new"⟩, ⟨"Mockuart.c", "new"⟩]⟩ obstructed).value =
      .error (.file "out/Mockuart.c" .isDirectory) ∧
    (write ⟨⟨"out"⟩, .counting⟩
        ⟨⟨"Mockuart"⟩, [⟨"Mockuart.h", "new"⟩, ⟨"Mockuart.c", "new"⟩]⟩
        obstructed).files.get? ["Mockuart.h", "out"] = some (.file "old".toUTF8) := by
  have hfail : (write ⟨⟨"out"⟩, .counting⟩
      ⟨⟨"Mockuart"⟩, [⟨"Mockuart.h", "new"⟩, ⟨"Mockuart.c", "new"⟩]⟩ obstructed).value =
      .error (.file "out/Mockuart.c" .isDirectory) := by decide +kernel
  have hold : obstructed.get? ["Mockuart.h", "out"] = some (.file "old".toUTF8) := by
    decide +kernel
  obtain ⟨hfiles, -, -⟩ := all_or_nothing _ _ _ _ hfail
  exact ⟨hfail, (hfiles _ _).2 hold⟩

end MockForge.Writer

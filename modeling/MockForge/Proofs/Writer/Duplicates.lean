import Mathlib.Data.List.Pairwise
import MockForge.Proofs.Writer.Completion
import MockForge.Proofs.Writer.Footprint

/-!
# Files that go to one place

A mock with two files that are spelled for one place is refused before anything is staged. Spellings
are told apart by their components, and below the empty base the dot that a path may start with is
one of them: with and without that dot, one place is written twice. Main statement:
`duplicates_refused`.
-/

namespace MockForge.Writer

variable {base : Path} {files : List MockFile} {file other : MockFile}
  {fault : WriteFault} {location : Location} {now : FileSystem}

/-- Two paths are the same below a base when they have the same steps. Below the empty base one that
starts with a dot is the same only as another one that does. -/
def Coincide (base : Path) (p q : String) : Prop :=
  (⟨p⟩ : Path).steps = (⟨q⟩ : Path).steps ∧
    (base.spelling = "" → (⟨p⟩ : Path).parts.1 = (⟨q⟩ : Path).parts.1)

instance (base : Path) (p q : String) : Decidable (Coincide base p q) :=
  inferInstanceAs (Decidable (_ ∧ _))

theorem Coincide.symm {p q : String} (h : Coincide base p q) : Coincide base q p :=
  ⟨h.1.symm, fun hb => (h.2 hb).symm⟩

instance (base : Path) :
    Std.Symm fun first second : MockFile => ¬Coincide base second.path first.path :=
  ⟨fun _ _ h hc => h hc.symm⟩

/-- The paths of all files are accepted. -/
def Accepted (base : Path) (files : List MockFile) : Prop :=
  ∀ file ∈ files, ∃ target, resolve base file.path = .ok target

theorem Accepted.isDownward (h : Accepted base files) (hf : file ∈ files) :
    (⟨file.path⟩ : Path).IsDownward := by
  obtain ⟨target, ht⟩ := h file hf
  exact (resolve_eq_ok_iff.1 ht).2.1

theorem Accepted.same_join_iff (h : Accepted base files) (hf : file ∈ files) (ho : other ∈ files) :
    (base.join ⟨file.path⟩).same (base.join ⟨other.path⟩) = true ↔
      Coincide base file.path other.path :=
  Path.same_join_iff (h.isDownward hf).plain (h.isDownward ho).plain

/-- Accepted files are flawless when no two coincide. -/
theorem Accepted.flawless_iff (h : Accepted base files) :
    Flawless base files ↔
      files.Pairwise fun first second => ¬Coincide base second.path first.path := by
  constructor
  · intro hf
    refine hf.apart.imp_of_mem fun hfirst hsecond hapart hc => hapart ?_
    exact (h.same_join_iff hsecond hfirst).2 hc
  · intro hp
    refine ⟨h, hp.imp_of_mem fun hfirst hsecond hapart hs => hapart ?_⟩
    exact (h.same_join_iff hsecond hfirst).1 hs

/-- What is wrong with accepted files is only that one repeats an earlier one. -/
theorem Accepted.firstFlaw_iff (h : Accepted base files) :
    FirstFlaw base files fault ↔
      ∃ earlier file later, files = earlier ++ file :: later ∧ fault = .duplicatePath file.path ∧
        (∃ other ∈ earlier, Coincide base file.path other.path) ∧
        earlier.Pairwise fun first second => ¬Coincide base second.path first.path := by
  have hsplit {earlier later : List MockFile} {file : MockFile}
      (hs : files = earlier ++ file :: later) : file ∈ files ∧ earlier ⊆ files := by
    rw [hs]
    exact ⟨by simp, List.subset_append_left _ _⟩
  constructor
  · rintro ⟨earlier, file, later, hs, hearlier, hflaw⟩
    obtain ⟨hfile, hsub⟩ := hsplit hs
    refine ⟨earlier, file, later, hs, ?_⟩
    cases hflaw with
    | refused hr =>
        obtain ⟨target, ht⟩ := h file hfile
        rw [hr] at ht
        cases ht
    | @repeated target other hr ho hsame =>
        rw [resolve_eq_ok hr, h.same_join_iff hfile (hsub ho)] at hsame
        exact ⟨rfl, ⟨other, ho, hsame⟩, (Accepted.flawless_iff hearlier.accepted).1 hearlier⟩
  · rintro ⟨earlier, file, later, hs, rfl, ⟨other, ho, hc⟩, hearlier⟩
    obtain ⟨hfile, hsub⟩ := hsplit hs
    obtain ⟨target, ht⟩ := h file hfile
    have haccepted : Accepted base earlier := fun file hf => h file (hsub hf)
    refine ⟨earlier, file, later, hs, haccepted.flawless_iff.2 hearlier, .repeated ht ho ?_⟩
    rw [resolve_eq_ok ht]
    exact (h.same_join_iff hfile (hsub ho)).2 hc

/-- A write tells of a repeated file when the first flaw of the paths is one. -/
theorem value_eq_duplicatePath_iff (writer : Writer) (mock : Mock) (fs : FileSystem)
    (path : String) :
    (writer.write mock fs).value = .error (.duplicatePath path) ↔
      FirstFlaw writer.base mock.files (.duplicatePath path) := by
  refine ⟨fun h => ?_, fun h => by rw [h.write_eq]; rfl⟩
  rcases (write_keeps writer mock fs).value _ h with hflaw | ⟨-, hfile⟩
  · exact hflaw
  · cases hfile

/-- After a write that succeeds a file is where it belongs, unless a file that coincides with it by
all but the dot at the start came later. -/
theorem held_or_overwritten {start : FileSystem} (mock : Mock)
    (haccepted : Accepted base mock.files)
    (hw : Written base mock start now) (hflawless : Flawless base mock.files)
    (hf : file ∈ mock.files) :
    (∃ location, now.locate (base.join ⟨file.path⟩) = .ok location ∧
      now.get? location = some (.file file.content.toUTF8)) ∨
    base.spelling = "" ∧ ∃ other ∈ mock.files,
      (⟨other.path⟩ : Path).steps = (⟨file.path⟩ : Path).steps ∧
      (⟨other.path⟩ : Path).parts.1 ≠ (⟨file.path⟩ : Path).parts.1 := by
  have hpath : base.join ⟨file.path⟩ ∈ pathsBelow base mock := List.mem_map.2 ⟨file, hf, rfl⟩
  obtain ⟨location, hl⟩ := hw.located _ hpath
  obtain ⟨last, hlast⟩ := exists_isLast hpath hl
  have hget := hw.last _ _ hlast
  obtain ⟨before, after, hsplit, hll, -⟩ := hlast
  have hmem : last ∈ mock.files := by rw [hsplit]; simp
  have hsteps : (⟨last.path⟩ : Path).steps = (⟨file.path⟩ : Path).steps :=
    FileSystem.steps_eq_of_locate (haccepted.isDownward hmem) (haccepted.isDownward hf) hll hl
  by_cases heq : last = file
  · exact .inl ⟨location, hl, heq ▸ hget⟩
  · have hapart := (haccepted.flawless_iff.1 hflawless).forall hf hmem (Ne.symm heq)
    rw [Coincide, not_and] at hapart
    have hstart := hapart hsteps
    rw [Classical.not_imp] at hstart
    exact .inr ⟨hstart.1, last, hmem, hsteps, hstart.2⟩

/-- Where the paths of all files are accepted, a write tells of a repeated file when two files
coincide. It names the first file that repeats one before it, and it does not look at the file
system. A write that succeeds leaves the content of each file where the file belongs; only below the
empty base it may have lost one to a file whose path has the same steps and another start. -/
theorem duplicates_refused (writer : Writer) (mock : Mock) (fs : FileSystem)
    (h : ∀ file ∈ mock.files, ∃ target, resolve writer.base file.path = .ok target) :
    (∀ path, (writer.write mock fs).value = .error (.duplicatePath path) ↔
      ∃ earlier file later, mock.files = earlier ++ file :: later ∧ path = file.path ∧
        (∃ other ∈ earlier, Coincide writer.base file.path other.path) ∧
        earlier.Pairwise fun first second => ¬Coincide writer.base second.path first.path) ∧
    ((∃ path, (writer.write mock fs).value = .error (.duplicatePath path)) ↔
      ∃ earlier file later, mock.files = earlier ++ file :: later ∧
        ∃ other ∈ earlier, Coincide writer.base file.path other.path) ∧
    (∀ path, (writer.write mock fs).value = .error (.duplicatePath path) →
      writer.write mock = pure (.error (.duplicatePath path))) ∧
    (∀ paths, (writer.write mock fs).value = .ok paths → ∀ file ∈ mock.files,
      (∃ location,
        (writer.write mock fs).files.locate (writer.base.join ⟨file.path⟩) = .ok location ∧
        (writer.write mock fs).files.get? location = some (.file file.content.toUTF8)) ∨
      writer.base.spelling = "" ∧ ∃ other ∈ mock.files,
        (⟨other.path⟩ : Path).steps = (⟨file.path⟩ : Path).steps ∧
        (⟨other.path⟩ : Path).parts.1 ≠ (⟨file.path⟩ : Path).parts.1) := by
  have haccepted : Accepted writer.base mock.files := h
  have hduplicate := value_eq_duplicatePath_iff writer mock fs
  refine ⟨fun path => ?_, ⟨?_, ?_⟩, fun path hvalue => ?_, fun paths hvalue file hf => ?_⟩
  · rw [hduplicate, haccepted.firstFlaw_iff]
    simp only [WriteFault.duplicatePath.injEq]
  · rintro ⟨path, hvalue⟩
    obtain ⟨earlier, file, later, hs, -, hc, -⟩ :=
      haccepted.firstFlaw_iff.1 ((hduplicate path).1 hvalue)
    exact ⟨earlier, file, later, hs, hc⟩
  · rintro ⟨earlier, file, later, hs, other, ho, hc⟩
    rcases flawless_or_firstFlaw writer.base mock.files with hflawless | ⟨fault, hflaw⟩
    · have hpairs := haccepted.flawless_iff.1 hflawless
      rw [hs, List.pairwise_append] at hpairs
      exact absurd hc (hpairs.2.2 other ho file List.mem_cons_self)
    · obtain ⟨-, first, -, -, rfl, -⟩ := haccepted.firstFlaw_iff.1 hflaw
      exact ⟨first.path, (hduplicate _).2 hflaw⟩
  · exact ((hduplicate path).1 hvalue).write_eq
  · have hw := write_written writer mock fs
    unfold Task.Ensures at hw
    rw [hvalue] at hw
    have hflawless : Flawless writer.base mock.files := by
      rcases flawless_or_firstFlaw writer.base mock.files with hflawless | ⟨fault, hflaw⟩
      · exact hflawless
      · rw [hflaw.write_eq] at hvalue
        cases hvalue
    exact held_or_overwritten mock haccepted hw.2 hflawless hf

/-- Dots and slashes between names do not tell two paths apart. -/
theorem respelled_source_refused :
    write ⟨⟨"out"⟩, .counting⟩
        ⟨⟨"uart"⟩, [⟨"src/uart.c", "a"⟩, ⟨"uart.h", "b"⟩, ⟨"./src//./uart.c/", "c"⟩]⟩ =
      pure (.error (.duplicatePath "./src//./uart.c/")) := by
  obtain ⟨hfirst, -, hnothing, -⟩ := duplicates_refused ⟨⟨"out"⟩, .counting⟩
    ⟨⟨"uart"⟩, [⟨"src/uart.c", "a"⟩, ⟨"uart.h", "b"⟩, ⟨"./src//./uart.c/", "c"⟩]⟩ .empty (by
      simp only [List.forall_mem_cons, List.not_mem_nil, false_imp_iff, implies_true, and_true]
      exact ⟨⟨_, rfl⟩, ⟨_, rfl⟩, ⟨_, rfl⟩⟩)
  refine hnothing _ ((hfirst _).2 ?_)
  exact ⟨[⟨"src/uart.c", "a"⟩, ⟨"uart.h", "b"⟩], ⟨"./src//./uart.c/", "c"⟩, [], rfl, rfl,
    by decide +kernel, by decide +kernel⟩

/-- Below the empty base a path and its spelling with a dot at the start are both accepted, and have
the same steps. They are written one over the other, and the write succeeds. -/
theorem dotted_spelling_overwrites :
    resolve ⟨""⟩ "Mockuart.h" = .ok ⟨"Mockuart.h"⟩ ∧
    resolve ⟨""⟩ "./Mockuart.h" = .ok ⟨"./Mockuart.h"⟩ ∧
    (⟨"Mockuart.h"⟩ : Path).steps = (⟨"./Mockuart.h"⟩ : Path).steps ∧
    (write ⟨⟨""⟩, .counting⟩
        ⟨⟨"Mockuart"⟩, [⟨"Mockuart.h", "a"⟩, ⟨"./Mockuart.h", "b"⟩]⟩ .empty).value =
      .ok [⟨"Mockuart.h"⟩, ⟨"./Mockuart.h"⟩] ∧
    (write ⟨⟨""⟩, .counting⟩
        ⟨⟨"Mockuart"⟩, [⟨"Mockuart.h", "a"⟩, ⟨"./Mockuart.h", "b"⟩]⟩ .empty).files.get?
        ["Mockuart.h"] = some (.file "b".toUTF8) := by
  decide +kernel

end MockForge.Writer

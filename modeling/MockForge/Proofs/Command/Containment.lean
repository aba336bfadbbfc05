import MockForge.Proofs.Command.Generation
import MockForge.Proofs.Path.Extension
import MockForge.Proofs.Writer.Footprint

/-!
# Names that lead elsewhere

The name of a mock is free text, and its two files are called by it. A writer accepts both files or
refuses the first one, and which of the two does not depend on the extension. So no name makes a
generation write anything outside its directory. Main statement: `generation_contained`.
-/

namespace MockForge

namespace Writer

variable {base : Path} {n : String} {c : Char} {mock : Mock}

/-! ## One file -/

theorem isBlank_extended : Text.isBlank (Path.extended n c).spelling = false :=
  isBlank_eq_false_iff.2 ⟨'.', by simp [Path.extended], by decide⟩

/-- A path with an extension is accepted, unless its text leads out. -/
theorem resolve_extended (base : Path) (n : String) (hs : c ≠ '/') (hd : c ≠ '.') :
    resolve base (Path.extended n c).spelling =
      if Path.LeadsOut n then .error (.invalidComponent (Path.extended n c).spelling)
      else .ok (base.join (Path.extended n c)) := by
  split
  · next h =>
    refine resolve_eq_invalidComponent_iff.2 ⟨isBlank_extended, ?_, rfl⟩
    exact fun hdown => (Path.isDownward_extended_iff hs hd).1 hdown h
  · next h =>
    exact resolve_eq_ok_iff.2 ⟨isBlank_extended, (Path.isDownward_extended_iff hs hd).2 h, rfl⟩

/-! ## The header and the source -/

/-- The files of a mock are a header and a source that go by one name. -/
def IsPair (n : String) (mock : Mock) : Prop :=
  mock.files.map MockFile.path = [n ++ ".h", n ++ ".c"]

theorem IsPair.path_eq (h : IsPair n mock) {file : MockFile} (hf : file ∈ mock.files) :
    ∃ c, c ≠ '/' ∧ c ≠ '.' ∧ (⟨file.path⟩ : Path) = Path.extended n c := by
  have hpath : file.path ∈ [n ++ ".h", n ++ ".c"] := h ▸ List.mem_map_of_mem hf
  simp only [List.mem_cons, List.not_mem_nil, or_false] at hpath
  rcases hpath with hp | hp
  · exact ⟨'h', by decide, by decide, by rw [hp]; rfl⟩
  · exact ⟨'c', by decide, by decide, by rw [hp]; rfl⟩

theorem IsPair.resolve_eq (h : IsPair n mock) (base : Path) {file : MockFile}
    (hf : file ∈ mock.files) :
    resolve base file.path =
      if Path.LeadsOut n then .error (.invalidComponent file.path)
      else .ok (base.join ⟨file.path⟩) := by
  obtain ⟨c, hs, hd, hpath⟩ := h.path_eq hf
  have hspelling : file.path = (Path.extended n c).spelling := congrArg Path.spelling hpath
  rw [hspelling]
  exact resolve_extended base n hs hd

theorem IsPair.files_eq (h : IsPair n mock) :
    ∃ header source : MockFile, mock.files = [header, source] ∧
      header.path = n ++ ".h" ∧ source.path = n ++ ".c" := by
  obtain ⟨header, rest, hfiles, hheader, hrest⟩ := List.map_eq_cons_iff.1 h
  obtain ⟨source, rest, rfl, hsource, hnil⟩ := List.map_eq_cons_iff.1 hrest
  rw [List.map_eq_nil_iff.1 hnil] at hfiles
  exact ⟨header, source, hfiles, hheader, hsource⟩

/-- Below no base the header and the source are the same. -/
theorem not_same_source_header (base : Path) (h : ¬Path.LeadsOut n) :
    ¬(base.join ⟨n ++ ".c"⟩).same (base.join ⟨n ++ ".h"⟩) = true := by
  have hplain (c : Char) (hs : c ≠ '/') (hd : c ≠ '.') :
      (Path.extended n c).spelling.toList.head? ≠ some '/' :=
    ((Path.isDownward_extended_iff hs hd).2 h).plain
  intro hsame
  have hsteps : (Path.extended n 'c').steps = (Path.extended n 'h').steps :=
    ((Path.same_join_iff (hplain 'c' (by decide) (by decide))
      (hplain 'h' (by decide) (by decide))).1 hsame).1
  exact Path.steps_extended_ne h (by decide) (by decide) (by decide) (by decide) (by decide) hsteps

/-- When the name does not lead out, both files are accepted. -/
theorem IsPair.flawless (h : IsPair n mock) (base : Path) (hn : ¬Path.LeadsOut n) :
    Flawless base mock.files := by
  refine ⟨fun file hf => ⟨_, (h.resolve_eq base hf).trans (if_neg hn)⟩, ?_⟩
  obtain ⟨header, source, hfiles, hheader, hsource⟩ := h.files_eq
  rw [hfiles, List.pairwise_pair, hheader, hsource]
  exact not_same_source_header base hn

/-- When the name leads out, the header is refused before anything else is looked at. -/
theorem IsPair.firstFlaw (h : IsPair n mock) (base : Path) (hn : Path.LeadsOut n) :
    FirstFlaw base mock.files (.invalidComponent (n ++ ".h")) := by
  obtain ⟨header, source, hfiles, hheader, -⟩ := h.files_eq
  have hmem : header ∈ mock.files := by simp [hfiles]
  have hresolve := (h.resolve_eq base hmem).trans (if_pos hn)
  exact ⟨[], header, [source], hfiles, ⟨by simp, .nil⟩, .refused (hheader ▸ hresolve)⟩

theorem IsPair.write_keepsTo (h : IsPair n mock) (writer : Writer) (start : FileSystem) :
    ∀ operation ∈ (writer.write mock start).operations,
      ¬Path.LeadsOut n ∧ KeepsTo writer.base operation := by
  by_cases hn : Path.LeadsOut n
  · rw [(h.firstFlaw writer.base hn).write_eq]
    exact fun operation ho => absurd ho List.not_mem_nil
  · refine fun operation ho => ⟨hn, keepsTo_of_write writer mock start ?_ operation ho⟩
    intro file hf
    obtain ⟨c, hs, hd, hpath⟩ := h.path_eq hf
    rw [hpath]
    exact ⟨(Path.isDownward_extended_iff hs hd).2 hn, Path.isNamed_extended hs hd⟩

end Writer

/-- What a generator makes is a header and a source that go by the name of the mock. -/
theorem Generator.isPair_of_generate {g : Generator} {functions : List Signature} {mock : Mock}
    (h : (g.generate functions).outcome = .ok mock) : Writer.IsPair g.context.mock.text mock := by
  obtain ⟨-, -, h⟩ := Run.outcome_bind_eq_ok h
  obtain ⟨header, -, h⟩ := Run.outcome_bind_eq_ok h
  obtain ⟨source, -, h⟩ := Run.outcome_bind_eq_ok h
  obtain ⟨-, -, h⟩ := Run.outcome_bind_eq_ok h
  cases h
  rfl

namespace Command

open Writer (IsPair KeepsTo)

/-- Everything that a generation does it does for a name that does not lead out, and below its
directory. -/
theorem generate_keepsTo (host : Host) (request : Request) (manner : Manner) (fs : FileSystem) :
    ∀ operation ∈ ((generate host request manner).run fs).operations,
      ∃ settings, settingsFor fs request.settings = .ok settings ∧
        ¬Path.LeadsOut (settings.mockPrefix ++ request.module) ∧
        KeepsTo (request.redirect settings).mockPath operation := by
  intro operation ho
  rcases ready_or_refused fs request with ⟨plan, h⟩ | ⟨failure, h⟩
  · obtain ⟨settings, hsettings, hplan⟩ := h.settings
    have hprefix : plan.settings.mockPrefix = settings.mockPrefix := by
      rw [hplan, Request.redirect]
      split <;> rfl
    have hpair : IsPair (settings.mockPrefix ++ request.module) plan.mock := by
      rw [h.mock, ← hprefix]
      rfl
    refine ⟨settings, hsettings, ?_⟩
    rw [← hplan]
    refine hpair.write_keepsTo ⟨plan.settings.mockPath, host⟩ fs operation ?_
    cases hd : request.dryRun with
    | true =>
        rw [(generate_of_dryRun host manner h hd).2] at ho
        cases ho
    | false =>
        cases hw : (Writer.write ⟨plan.settings.mockPath, host⟩ plan.mock fs).value with
        | ok paths => rwa [(generate_of_write_ok manner h hd hw).2] at ho
        | error fault => rwa [(generate_of_write_error manner h hd hw).2] at ho
  · rw [(generate_of_refused host manner h).2] at ho
    cases ho

/-- The two files of a mock go by its name, and no name makes a writer refuse one of them as blank
or as repeated. Both are refused for where they lead when the name starts with a slash or goes up
before its last slash, and then the write does nothing but to tell of the first one; otherwise both
are accepted. In neither case is anything done outside the directory of the writer, save to make the
directories on the way there, nor does a generation do anything else outside its own. -/
theorem generation_contained (symbolPrefix module : String) (base : Path) (host : Host)
    (g : Generator) (functions : List Signature) (mock : Mock)
    (hg : g.context.mock = .derive symbolPrefix ⟨module⟩)
    (hm : (g.generate functions).outcome = .ok mock) :
    mock.files.map MockFile.path =
      [symbolPrefix ++ module ++ ".h", symbolPrefix ++ module ++ ".c"] ∧
    (∀ file ∈ mock.files,
      (∀ text, Writer.resolve base file.path ≠ .error (.invalidPath text)) ∧
      (Writer.resolve base file.path = .error (.invalidComponent file.path) ↔
        (symbolPrefix ++ module).toList.head? = some '/' ∨
          ['.', '.'] ∈ ((symbolPrefix ++ module).toList.splitOn '/').dropLast)) ∧
    (Path.LeadsOut (symbolPrefix ++ module) →
      Writer.write ⟨base, host⟩ mock =
        pure (.error (.invalidComponent (symbolPrefix ++ module ++ ".h")))) ∧
    (¬Path.LeadsOut (symbolPrefix ++ module) →
      Writer.targets base [] mock.files =
        .ok [base.join ⟨symbolPrefix ++ module ++ ".h"⟩,
          base.join ⟨symbolPrefix ++ module ++ ".c"⟩]) ∧
    (∀ fs text,
      (Writer.write ⟨base, host⟩ mock fs).value ≠ .error (.invalidPath text) ∧
      (Writer.write ⟨base, host⟩ mock fs).value ≠ .error (.duplicatePath text) ∧
      ((Writer.write ⟨base, host⟩ mock fs).value = .error (.invalidComponent text) ↔
        Path.LeadsOut (symbolPrefix ++ module) ∧ text = symbolPrefix ++ module ++ ".h")) ∧
    (∀ fs, ∀ operation ∈ (Writer.write ⟨base, host⟩ mock fs).operations,
      KeepsTo base operation) ∧
    ∀ request manner fs, ∀ operation ∈ ((generate host request manner).run fs).operations,
      ∃ settings, settingsFor fs request.settings = .ok settings ∧
        ¬Path.LeadsOut (settings.mockPrefix ++ request.module) ∧
        KeepsTo (request.redirect settings).mockPath operation := by
  have hpair : IsPair (symbolPrefix ++ module) mock := by
    have h := Generator.isPair_of_generate hm
    rwa [hg] at h
  refine ⟨hpair, fun file hf => ?_, fun hn => (hpair.firstFlaw base hn).write_eq, fun hn => ?_,
    fun fs text => ?_, fun fs operation ho => (hpair.write_keepsTo ⟨base, host⟩ fs operation ho).2,
    generate_keepsTo host⟩
  · rw [hpair.resolve_eq base hf, ← Path.LeadsOut]
    by_cases hn : Path.LeadsOut (symbolPrefix ++ module) <;> simp [hn]
  · obtain ⟨header, source, hfiles, hheader, hsource⟩ := hpair.files_eq
    rw [(hpair.flawless base hn).targets_eq, hfiles, List.map_cons, List.map_cons, List.map_nil,
      hheader, hsource]
  · by_cases hn : Path.LeadsOut (symbolPrefix ++ module)
    · rw [(hpair.firstFlaw base hn).write_eq]
      simp [hn, eq_comm]
    · have hfile {fault : WriteFault}
          (h : (Writer.write ⟨base, host⟩ mock fs).value = .error fault) : fault.isFile = true := by
        rcases (Writer.write_keeps ⟨base, host⟩ mock fs).value fault h with hflaw | ⟨-, hfile⟩
        · exact absurd hflaw (hpair.flawless base hn).not_firstFlaw
        · exact hfile
      refine ⟨fun h => ?_, fun h => ?_, fun h => ?_, fun h => absurd h.1 hn⟩ <;> cases hfile h

/-- Two dots after a slash lead out, unless they come last, where the extension makes a name of
them. -/
theorem escape_refused :
    Writer.write ⟨⟨"out"⟩, .counting⟩ (mockFor "../../uart" {} { functions := [] }) =
      pure (.error (.invalidComponent "Mock../../uart.h")) ∧
    Writer.targets ⟨"out"⟩ [] (mockFor "../.." {} { functions := [] }).files =
      .ok [⟨"out/Mock../...h"⟩, ⟨"out/Mock../...c"⟩] := by
  obtain ⟨-, -, hrefused, -⟩ := generation_contained "Mock" "../../uart" ⟨"out"⟩ .counting
    { context := contextFor "../../uart" {} } [] _ rfl (outcome_generate_mockFor _ _ ⟨[]⟩)
  obtain ⟨-, -, -, haccepted, -⟩ := generation_contained "Mock" "../.." ⟨"out"⟩ .counting
    { context := contextFor "../.." {} } [] _ rfl (outcome_generate_mockFor _ _ ⟨[]⟩)
  refine ⟨hrefused (by decide +kernel), (haccepted (by decide +kernel)).trans ?_⟩
  decide +kernel

end Command

end MockForge

import MockForge.Proofs.Command.Generation
import MockForge.Proofs.Path.Extension
import MockForge.Proofs.Writer.Completion

/-!
# Dry runs

A dry run shows what a real run writes, for both carry out one plan. The header and the source of a
mock never lie in one place, so a real run leaves the whole content of each.
-/

namespace MockForge

/-! ## The header and the source lie apart -/

namespace Path

/-- A path below another one ends as it is written. -/
theorem toList_join (p q : Path) :
    ∃ front, (p.join q).spelling.toList = front ++ q.spelling.toList := by
  unfold join
  split
  · exact ⟨[], rfl⟩
  · split
    · exact ⟨p.spelling.toList, by simp⟩
    · exact ⟨p.spelling.toList ++ ['/'], by simp⟩

end Path

namespace FileSystem

/-- A path that ends in an extension leads to a name that does. -/
theorem locate_extended (fs : FileSystem) (base : Path) (name : String) {c : Char}
    (hs : c ≠ '/') (hd : c ≠ '.') {location : Location}
    (h : fs.locate (base.join (Path.extended name c)) = .ok location) :
    ∃ front place, location = String.ofList (front ++ ['.', c]) :: place := by
  obtain ⟨front, hfront⟩ := Path.toList_join base (Path.extended name c)
  obtain ⟨before, hpieces⟩ := Path.exists_pieces_append (front ++ name.toList)
  refine ⟨(front ++ name.toList).rtakeWhile (· ≠ '/'), before.foldl heading [], ?_⟩
  rw [locate_eq_leadsTo h, leadsTo, hfront, Path.extended, String.toList_append,
    String.toList_ofList, ← List.append_assoc, hpieces ['.', c] (by simp [Ne.symm hs]),
    List.foldl_append, List.foldl_cons, List.foldl_nil, heading, Path.ofPiece?_extension _ hd]

/-- A header and a source never lie in one place, whatever they are called. -/
theorem locate_header_ne_source (fs : FileSystem) (base : Path) (name : String)
    {location : Location} (hh : fs.locate (base.join ⟨name ++ ".h"⟩) = .ok location) :
    fs.locate (base.join ⟨name ++ ".c"⟩) ≠ .ok location := by
  intro hc
  obtain ⟨front, place, rfl⟩ := locate_extended fs base name (c := 'h') (by decide) (by decide) hh
  obtain ⟨front', place', he⟩ := locate_extended fs base name (c := 'c') (by decide) (by decide) hc
  have hname : front ++ ['.', 'h'] = front' ++ ['.', 'c'] :=
    String.ofList_injective (List.cons.inj he).1
  have hlast := congrArg List.getLast? hname
  simp at hlast

/-- A path that leads to a file has its contents. -/
theorem contents_eq_ok {fs : FileSystem} {p : Path} {location : Location} {contents : ByteArray}
    (hl : fs.locate p = .ok location) (hg : fs.get? location = some (.file contents)) :
    fs.contents p = .ok contents := by
  simp [FileSystem.contents, find, hl, hg, bind, Except.bind]

end FileSystem

namespace Writer

/-- Of two files that lie apart, each is left with its whole content. -/
theorem Written.contents_of_apart {base : Path} {name : MockName} {first second : MockFile}
    {start now : FileSystem} (h : Written base ⟨name, [first, second]⟩ start now)
    (hne : ∀ location, now.locate (base.join ⟨first.path⟩) = .ok location →
      now.locate (base.join ⟨second.path⟩) ≠ .ok location) :
    ∀ file ∈ [first, second],
      now.contents (base.join ⟨file.path⟩) = .ok file.content.toUTF8 := by
  intro file hf
  obtain ⟨location, hl⟩ := h.located (base.join ⟨file.path⟩) (List.mem_map.2 ⟨file, hf, rfl⟩)
  refine FileSystem.contents_eq_ok hl (h.last location file ?_)
  simp only [List.mem_cons, List.not_mem_nil, or_false] at hf
  rcases hf with rfl | rfl
  · exact ⟨[], [second], rfl, hl, by simpa using hne location hl⟩
  · exact ⟨[first], [], rfl, hl, by simp⟩

end Writer

namespace Command

variable {fs : FileSystem} {request : Request} {plan : Plan} {failure : Failure}

/-! ## Both runs -/

/-- What is ready does not depend on whether it is to be written. -/
theorem Ready.of_dryRun (h : Ready fs request plan) (dryRun : Bool) :
    Ready fs { request with dryRun } plan := ⟨h.module, h.settings, h.header, h.mock⟩

theorem Refused.of_dryRun (h : Refused fs request failure) (dryRun : Bool) :
    Refused fs { request with dryRun } failure := by
  cases h with
  | module hm => exact .module hm
  | settings hm hp hs => exact .settings hm hp hs
  | descriptors hm hs hd => exact .descriptors hm hs hd

theorem Refused.cause (h : Refused fs request failure) : failure.cause.isWrite = false := by
  cases h <;> rfl

/-- A plan takes the directory and the name of its mock from the settings that were loaded, and
the directory from the request if it names one. -/
theorem Ready.loaded (h : Ready fs request plan) :
    ∃ settings, ((loadSettings request.settings).run fs).value = .ok settings ∧
      plan.settings.mockPath = (request.redirect settings).mockPath ∧
      plan.mock.name.text = settings.mockPrefix ++ request.module := by
  obtain ⟨settings, hs, he⟩ := h.settings
  have hprefix : (request.redirect settings).mockPrefix = settings.mockPrefix := by
    unfold Request.redirect
    split <;> rfl
  refine ⟨settings, (loadSettings_of_ok hs).1, by rw [he], ?_⟩
  rw [h.mock, he, ← hprefix]
  rfl

/-- A plan has a mock of two files. -/
theorem Ready.mock_eq (h : Ready fs request plan) :
    ∃ header source : MockFile, plan.mock = ⟨plan.mock.name, [header, source]⟩ ∧
      header.path = plan.mock.name.text ++ ".h" ∧ source.path = plan.mock.name.text ++ ".c" := by
  rw [h.mock]
  exact ⟨_, _, rfl, rfl, rfl⟩

theorem preview_pair (name : MockName) (header source : MockFile) :
    preview ⟨name, [header, source]⟩ =
      line ("// ---- " ++ header.path ++ " ----") ++ header.content ++
        line ("// ---- " ++ source.path ++ " ----") ++ source.content := by
  simp [preview, String.append_assoc]

/-- A real run that succeeds leaves both files of its plan with their whole contents, and reports
where they are. -/
theorem Ready.written {host : Host} {manner : Manner} {header source : MockFile}
    (h : Ready fs request plan) (hd : request.dryRun = false)
    (hm : plan.mock = ⟨plan.mock.name, [header, source]⟩)
    (hh : header.path = plan.mock.name.text ++ ".h")
    (hs : source.path = plan.mock.name.text ++ ".c") {printed : Printed}
    (hok : ((generate host request manner).run fs).value = .ok printed) :
    printed = plan.printed request manner ([header.path, source.path].map fun path =>
        (plan.settings.mockPath.join ⟨path⟩).spelling) ∧
      ∀ file ∈ [header, source], ((generate host request manner).run fs).files.contents
        (plan.settings.mockPath.join ⟨file.path⟩) = .ok file.content.toUTF8 := by
  cases hw : (Writer.write ⟨plan.settings.mockPath, host⟩ plan.mock fs).value with
  | error fault =>
      rw [(generate_of_write_error manner h hd hw).1] at hok
      cases hok
  | ok paths =>
      have hy := generate_of_write_ok manner h hd hw
      have hwritten := Writer.write_written ⟨plan.settings.mockPath, host⟩ plan.mock fs
      rw [Task.Ensures, hw] at hwritten
      obtain ⟨rfl, hwritten⟩ := hwritten
      have hpaths : (Writer.pathsBelow plan.settings.mockPath plan.mock).map Path.spelling =
          [header.path, source.path].map fun path =>
            (plan.settings.mockPath.join ⟨path⟩).spelling := by
        rw [hm]
        rfl
      rw [hy.1, hpaths] at hok
      rw [hy.files, ← Performed.files_eq]
      generalize (Writer.write ⟨plan.settings.mockPath, host⟩ plan.mock fs).files = now
        at hwritten ⊢
      rw [hm] at hwritten
      refine ⟨(Except.ok.inj hok).symm, hwritten.contents_of_apart fun location hl => ?_⟩
      rw [hh] at hl
      rw [hs]
      exact FileSystem.locate_header_ne_source now plan.settings.mockPath _ hl

/-- A dry run reads and tells, and does nothing else. -/
theorem dry_run_operations (host : Host) (request : Request) (manner : Manner)
    (fs : FileSystem) :
    ((generate host { request with dryRun := true } manner).run fs).operations = [] := by
  rcases ready_or_refused fs request with ⟨plan, h⟩ | ⟨failure, h⟩
  · exact (generate_of_dryRun host manner (h.of_dryRun true) rfl).2
  · exact (generate_of_refused host manner (h.of_dryRun true)).2

/-- A dry run fails exactly when the real run fails before it writes, and with the same failure. -/
theorem dry_run_eq_error_iff (host : Host) (request : Request) (manner : Manner)
    (fs : FileSystem) (failure : Failure) :
    ((generate host { request with dryRun := true } manner).run fs).value = .error failure ↔
      ((generate host { request with dryRun := false } manner).run fs).value = .error failure ∧
        failure.cause.isWrite = false := by
  rcases ready_or_refused fs request with ⟨plan, h⟩ | ⟨other, h⟩
  · rw [(generate_of_dryRun host manner (h.of_dryRun true) rfl).1]
    constructor
    · intro he
      cases he
    · rintro ⟨he, hc⟩
      cases hw : (Writer.write ⟨plan.settings.mockPath, host⟩ plan.mock fs).value with
      | ok paths =>
          rw [(generate_of_write_ok manner (h.of_dryRun false) rfl hw).1] at he
          cases he
      | error fault =>
          rw [(generate_of_write_error manner (h.of_dryRun false) rfl hw).1] at he
          cases he
          cases hc
  · rw [(generate_of_refused host manner (h.of_dryRun true)).1,
      (generate_of_refused host manner (h.of_dryRun false)).1]
    constructor
    · rintro ⟨⟩
      exact ⟨rfl, h.cause⟩
    · exact And.left

/-- When a real run succeeds, a dry run from the same file system succeeds as well. It shows the
header and then the source, each after a line with its path, and each with the content that the
real run leaves below the directory of the mock: the one that the request names, or else the one in
the settings. Their reports are about the same mock and differ only in where the files are and
whether they are written. A dry run never changes anything, and it fails exactly when the real run
fails before it writes, and with the same failure. -/
theorem dry_run_shows (host : Host) (request : Request) (manner : Manner) (fs : FileSystem) :
    let real := (generate host { request with dryRun := false } manner).run fs
    let dry := (generate host { request with dryRun := true } manner).run fs
    (∀ printed, real.value = .ok printed →
      ∃ (settings : Settings) (read : Header) (report : Report.Generation)
          (header source : MockFile),
        ((loadSettings request.settings).run fs).value = .ok settings ∧
        ((Header.ofFile request.descriptors).run fs).value = .ok read ∧
        report.module = request.module ∧
        report.mockName = settings.mockPrefix ++ request.module ∧
        report.functionCount = read.functions.length ∧
        report.outputDirectory = (request.redirect settings).mockPath.spelling ∧
        header.path = report.mockName ++ ".h" ∧ source.path = report.mockName ++ ".c" ∧
        (∀ file ∈ [header, source],
          real.files.contents ((⟨report.outputDirectory⟩ : Path).join ⟨file.path⟩) =
            .ok file.content.toUTF8) ∧
        printed = {
          out := line (Report.print manner.format manner.colored
            { report with
              files := [header.path, source.path].map fun path =>
                ((⟨report.outputDirectory⟩ : Path).join ⟨path⟩).spelling
              dryRun := false }.toJson) } ∧
        dry.value = .ok
          { out := line ("// ---- " ++ header.path ++ " ----") ++ header.content ++
              line ("// ---- " ++ source.path ++ " ----") ++ source.content
            err := line (Report.print manner.format manner.colored
              { report with files := [header.path, source.path], dryRun := true }.toJson) }) ∧
    dry.operations = [] ∧ dry.files = fs ∧
    ∀ failure, dry.value = .error failure ↔
      real.value = .error failure ∧ failure.cause.isWrite = false := by
  intro real dry
  have hidle := dry_run_operations host request manner fs
  refine ⟨fun printed hok => ?_, hidle, ?_, dry_run_eq_error_iff host request manner fs⟩
  · rcases ready_or_refused fs request with ⟨plan, h⟩ | ⟨failure, h⟩
    · have hdry := generate_of_dryRun host manner (h.of_dryRun true) rfl
      obtain ⟨settings, hloaded, hdirectory, hname⟩ := h.loaded
      have hdescribed := header_ofFile_yields fs request.descriptors
      rw [h.header] at hdescribed
      obtain ⟨header, source, hm, hh, hs⟩ := h.mock_eq
      obtain ⟨hprinted, hcontents⟩ := (h.of_dryRun false).written rfl hm hh hs hok
      have hfiles : plan.mock.files.map MockFile.path = [header.path, source.path] := by
        rw [hm]
        rfl
      refine ⟨settings, plan.header, plan.report request [], header, source, hloaded,
        hdescribed.1, rfl, hname, rfl, congrArg Path.spelling hdirectory, hh, hs, hcontents,
        hprinted, ?_⟩
      rw [hdry.1, hfiles, ← preview_pair plan.mock.name, ← hm]
      rfl
    · rw [(generate_of_refused host manner (h.of_dryRun false)).1] at hok
      cases hok
  · rw [dry.files_eq, hidle]
    rfl

/-- A directory in which a header is described. -/
def describing (h : Header) : FileSystem :=
  [FileSystem.Operation.createFile ["uart.json"],
    .fill ["uart.json"] h.toJson.compactText.toUTF8].foldl FileSystem.perform .empty

/-- A directory in which a header of one function is described. -/
def described : FileSystem := describing ⟨[⟨"uart_init", "void", none, none, .empty, none⟩]⟩

theorem uart_dry_run_shows :
    let request : Request := { descriptors := ⟨"uart.json"⟩, module := "uart" }
    let real := (generate .counting { request with dryRun := false } {}).run described
    let dry := (generate .counting { request with dryRun := true } {}).run described
    real.value.isOk = true ∧ dry.value.isOk = true ∧ dry.files = described ∧
      ∃ header source : MockFile,
        real.files.contents ⟨"mocks/Mockuart.h"⟩ = .ok header.content.toUTF8 ∧
        real.files.contents ⟨"mocks/Mockuart.c"⟩ = .ok source.content.toUTF8 ∧
        dry.value.map Printed.out = .ok
          ("// ---- Mockuart.h ----\n" ++ header.content ++
            "// ---- Mockuart.c ----\n" ++ source.content) := by
  intro request real dry
  obtain ⟨hshows, -, hfiles, -⟩ := dry_run_shows .counting request {} described
  have hok : real.value.isOk = true := by decide +kernel
  obtain ⟨printed, hprinted⟩ : ∃ printed, real.value = .ok printed := by
    cases hv : real.value with
    | ok printed => exact ⟨printed, rfl⟩
    | error failure =>
        rw [hv] at hok
        cases hok
  obtain ⟨settings, read, report, header, source, hloaded, -, -, hname, -, hdirectory, hh, hs,
    hcontents, -, hdry⟩ := hshows printed hprinted
  obtain rfl : {} = settings := Except.ok.inj hloaded
  have hdir : report.outputDirectory = "mocks" := hdirectory
  have hheader : header.path = "Mockuart.h" := by rw [hh, hname]; decide
  have hsource : source.path = "Mockuart.c" := by rw [hs, hname]; decide
  rw [hdir] at hcontents
  refine ⟨hok, by rw [hdry]; rfl, hfiles, header, source, ?_, ?_, ?_⟩
  · have hleft := hcontents header (by simp)
    rwa [hheader] at hleft
  · have hleft := hcontents source (by simp)
    rwa [hsource] at hleft
  · rw [hdry, hheader, hsource]
    rfl

end Command

end MockForge

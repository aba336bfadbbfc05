import MockForge.CommandLine
import MockForge.Proofs.Command.Generation
import MockForge.Proofs.Writer.Atomicity

/-!
# Exit codes

The exit code of a generation tells at which stage it failed: 2 while it read, and then it has done
nothing, or 3 while it wrote, and then every file is as it was. The program ends with 1 only when it
does not know the format that it is to report in, and then it does not even read.
-/

namespace MockForge

/-! ## Faults of the input -/

variable {fs : FileSystem} {path : Path} {fault : Fault}

theorem isPlugin_of_textAt (h : textAt fs path = .error fault) : fault.isPlugin = false := by
  unfold textAt at h
  cases hr : fs.readText path with
  | error cause =>
      rw [hr] at h
      cases h
      rfl
  | ok text =>
      rw [hr] at h
      cases h

theorem isPlugin_of_validated {settings : Settings} (h : settings.validated = .error fault) :
    fault.isPlugin = false := by
  unfold Settings.validated at h
  split at h
  · next broken hb =>
    cases h
    unfold Settings.fault? at hb
    split at hb
    · cases hb
      rfl
    · split at hb
      · cases hb
        rfl
      · split at hb
        · cases hb
          rfl
        · cases hb
  · cases h

theorem isPlugin_of_settingsAt (h : settingsAt fs path = .error fault) :
    fault.isPlugin = false := by
  rcases bind_eq_error.1 h with ht | ⟨document, -, h⟩
  · exact isPlugin_of_textAt ht
  · unfold Settings.ofToml at h
    split at h
    · cases h
      rfl
    · split at h
      · cases h
        rfl
      · exact isPlugin_of_validated h

theorem isPlugin_of_headerAt (h : headerAt fs path = .error fault) : fault.isPlugin = false := by
  rcases bind_eq_error.1 h with ht | ⟨document, -, h⟩
  · exact isPlugin_of_textAt ht
  · unfold Header.ofJson at h
    cases hr : Header.ofJson? document with
    | error cause =>
        rw [hr] at h
        cases h
        rfl
    | ok header =>
        rw [hr] at h
        cases h

namespace Command

variable {request : Request} {plan : Plan} {failure : Failure}

theorem exitCode_of_fault {text : String} (h : fault.isPlugin = false) :
    (⟨[.text text], .fault fault⟩ : Failure).exitCode = .invalidInput := by
  show (if fault.isPlugin then ExitCode.generationError else .invalidInput) = .invalidInput
  rw [h]
  rfl

theorem Refused.exitCode (h : Refused fs request failure) : failure.exitCode = .invalidInput := by
  cases h with
  | module hm => rfl
  | settings hm hp hs => exact exitCode_of_fault (isPlugin_of_settingsAt hs)
  | descriptors hm hs hd => exact exitCode_of_fault (isPlugin_of_headerAt hd)

/-! ## Codes of generations -/

theorem code_of_refused (host : Host) (manner : Manner) (h : Refused fs request failure) :
    (exitCode ((generate host request manner).run fs).value).number = 2 := by
  rw [(generate_of_refused host manner h).1, exitCode, h.exitCode]
  rfl

theorem code_of_write_error {host : Host} {fault : WriteFault} (manner : Manner)
    (h : Ready fs request plan) (hd : request.dryRun = false)
    (hw : (Writer.write ⟨plan.settings.mockPath, host⟩ plan.mock fs).value = .error fault) :
    (exitCode ((generate host request manner).run fs).value).number = 3 := by
  rw [(generate_of_write_error manner h hd hw).1]
  rfl

/-- With a plan a generation succeeds, unless it is to write and cannot. -/
theorem Ready.ok_or_write_error (h : Ready fs request plan) (host : Host) (manner : Manner) :
    (∃ printed, ((generate host request manner).run fs).value = .ok printed) ∨
      request.dryRun = false ∧ ∃ fault,
        (Writer.write ⟨plan.settings.mockPath, host⟩ plan.mock fs).value = .error fault := by
  cases hd : request.dryRun with
  | true => exact .inl ⟨_, (generate_of_dryRun host manner h hd).1⟩
  | false =>
      cases hw : (Writer.write ⟨plan.settings.mockPath, host⟩ plan.mock fs).value with
      | ok paths => exact .inl ⟨_, (generate_of_write_ok manner h hd hw).1⟩
      | error fault => exact .inr ⟨rfl, fault, rfl⟩

/-- A generation succeeds, or it has refused some input, or it could not write. -/
theorem generate_cases (host : Host) (request : Request) (manner : Manner) (fs : FileSystem) :
    (∃ printed, ((generate host request manner).run fs).value = .ok printed) ∨
      (∃ failure, Refused fs request failure) ∨
      ∃ plan fault, Ready fs request plan ∧ request.dryRun = false ∧
        (Writer.write ⟨plan.settings.mockPath, host⟩ plan.mock fs).value = .error fault := by
  rcases ready_or_refused fs request with ⟨plan, h⟩ | hr
  · rcases h.ok_or_write_error host manner with hok | ⟨hd, fault, hw⟩
    · exact .inl hok
    · exact .inr (.inr ⟨plan, fault, h, hd, hw⟩)
  · exact .inr (.inl hr)

theorem code_cases (host : Host) (request : Request) (manner : Manner) (fs : FileSystem) :
    (∃ printed, ((generate host request manner).run fs).value = .ok printed) ∧
        (exitCode ((generate host request manner).run fs).value).number = 0 ∨
      (∃ failure, ((generate host request manner).run fs).value = .error failure) ∧
        ((exitCode ((generate host request manner).run fs).value).number = 2 ∨
          (exitCode ((generate host request manner).run fs).value).number = 3) := by
  rcases generate_cases host request manner fs with
    ⟨printed, h⟩ | ⟨failure, h⟩ | ⟨plan, fault, h, hd, hw⟩
  · rw [h]
    exact .inl ⟨⟨printed, rfl⟩, rfl⟩
  · exact .inr ⟨⟨failure, (generate_of_refused host manner h).1⟩,
      .inl (code_of_refused host manner h)⟩
  · exact .inr ⟨⟨_, (generate_of_write_error manner h hd hw).1⟩,
      .inr (code_of_write_error manner h hd hw)⟩

theorem code_eq_two_iff (host : Host) (request : Request) (manner : Manner) (fs : FileSystem) :
    (exitCode ((generate host request manner).run fs).value).number = 2 ↔
      ∃ failure, Refused fs request failure := by
  constructor
  · intro hc
    rcases generate_cases host request manner fs with
      ⟨printed, h⟩ | hr | ⟨plan, fault, h, hd, hw⟩
    · rw [h] at hc
      cases hc
    · exact hr
    · rw [code_of_write_error manner h hd hw] at hc
      cases hc
  · rintro ⟨failure, h⟩
    exact code_of_refused host manner h

theorem code_eq_three_iff (host : Host) (request : Request) (manner : Manner) (fs : FileSystem) :
    (exitCode ((generate host request manner).run fs).value).number = 3 ↔
      ∃ plan fault, Ready fs request plan ∧ request.dryRun = false ∧
        (Writer.write ⟨plan.settings.mockPath, host⟩ plan.mock fs).value = .error fault := by
  constructor
  · intro hc
    rcases generate_cases host request manner fs with ⟨printed, h⟩ | ⟨failure, h⟩ | hw
    · rw [h] at hc
      cases hc
    · rw [code_of_refused host manner h] at hc
      cases hc
    · exact hw
  · rintro ⟨plan, fault, h, hd, hw⟩
    exact code_of_write_error manner h hd hw

/-- A generation that could not write has changed no file. -/
theorem file_iff_of_write_error {host : Host} {fault : WriteFault} (manner : Manner)
    (h : Ready fs request plan) (hd : request.dryRun = false)
    (hw : (Writer.write ⟨plan.settings.mockPath, host⟩ plan.mock fs).value = .error fault)
    (location : Location) (contents : ByteArray) :
    ((generate host request manner).run fs).files.get? location = some (.file contents) ↔
      fs.get? location = some (.file contents) := by
  have hstaged := Writer.write_ensures ⟨plan.settings.mockPath, host⟩ plan.mock fs
  rw [Task.Ensures, hw] at hstaged
  rw [(generate_of_write_error manner h hd hw).files, ← Performed.files_eq]
  exact hstaged.file_iff location contents

/-! ## The program -/

theorem showSettings_code (path : Option Path) (manner : Manner) (fs : FileSystem) :
    (exitCode ((showSettings path manner).run fs).value).number ≠ 1 := by
  cases hs : settingsFor fs path with
  | ok settings =>
      have hshow : (showSettings path manner).Yields fs (.ok _) [] :=
        (loadSettings_of_ok hs).read_bind (Job.Yields.read_bind ⟨rfl, rfl⟩ (Job.yields_pure _))
      rw [hshow.1]
      exact Nat.zero_ne_one
  | error fault =>
      cases path with
      | none => cases hs
      | some path =>
          have hshow : (showSettings (some path) manner).Yields fs (.error _) [] :=
            (loadSettings_of_error hs).bind_error
          rw [hshow.1, exitCode, exitCode_of_fault (isPlugin_of_settingsAt hs)]
          decide

end Command

namespace CommandLine

theorem job_code (command : Invoked) (manner : Command.Manner) (host : Host) (fs : FileSystem) :
    (Command.exitCode ((command.job manner host).run fs).value).number ≠ 1 := by
  cases command with
  | generate request =>
      rcases Command.code_cases host request manner fs with ⟨-, h⟩ | ⟨-, h | h⟩
      all_goals
        intro hc
        exact absurd (h.symm.trans hc) (by decide)
  | config path => exact Command.showSettings_code path manner fs

theorem run_code_eq_one_iff (arguments : List String) (environment : Environment)
    (fs : FileSystem) :
    (run arguments environment fs).value.code.number = 1 ↔
      ∃ invocation fault, parse arguments = .ok invocation ∧
        OutputFormat.ofName invocation.format = .error fault := by
  unfold run
  cases hp : parse arguments with
  | error stop => cases stop <;> simp [Stop.ending, ExitCode.number]
  | ok invocation =>
      unfold Invocation.run
      cases hf : OutputFormat.ofName invocation.format with
      | error fault =>
        simp [ExitCode.number, hf]
      | ok format =>
          simp [Ending.ofResult, hf, job_code]

/-- A program that does not know its format looks at no file. -/
theorem run_of_unknown_format {arguments : List String} {invocation : Invocation} {fault : Fault}
    (environment : Environment) (hp : parse arguments = .ok invocation)
    (hf : OutputFormat.ofName invocation.format = .error fault) :
    run arguments environment =
      pure { code := .error, printed := { err := "Error: " ++ fault.message ++ "\n" } } := by
  unfold run
  rw [hp]
  dsimp only
  unfold Invocation.run
  rw [hf]

/-- A generation ends with 0 when it succeeds and with 2 or 3 when it fails. It ends with 2 exactly
when it refuses some input; it reports the first such input and changes nothing. It ends with 3
exactly when all input is in order and the mock is to be written and cannot be; then all files are
as they were. The program ends with 1 exactly when it does not know the format asked for, and then
it neither reads nor writes any file. -/
theorem exit_codes (host : Host) (request : Command.Request) (manner : Command.Manner)
    (fs : FileSystem) :
    let done := (Command.generate host request manner).run fs
    ((∃ printed, done.value = .ok printed) ∧ (Command.exitCode done.value).number = 0 ∨
      (∃ failure, done.value = .error failure) ∧
        ((Command.exitCode done.value).number = 2 ∨ (Command.exitCode done.value).number = 3)) ∧
    ((Command.exitCode done.value).number = 2 ↔ ∃ failure, Command.Refused fs request failure) ∧
    (∀ failure, Command.Refused fs request failure →
      done.value = .error failure ∧ done.operations = [] ∧ done.files = fs) ∧
    ((Command.exitCode done.value).number = 3 ↔
      ∃ plan fault, Command.Ready fs request plan ∧ request.dryRun = false ∧
        (Writer.write ⟨plan.settings.mockPath, host⟩ plan.mock fs).value = .error fault) ∧
    ((Command.exitCode done.value).number = 3 → ∀ location contents,
      done.files.get? location = some (.file contents) ↔
        fs.get? location = some (.file contents)) ∧
    ∀ arguments environment,
      let ran := run arguments environment fs
      (ran.value.code.number = 1 ↔
        ∃ invocation fault, parse arguments = .ok invocation ∧
          OutputFormat.ofName invocation.format = .error fault) ∧
      (ran.value.code.number = 1 →
        ran.operations = [] ∧ ran.files = fs ∧ ran.notices = [] ∧ ran.value.printed.out = "" ∧
          ∀ other, (run arguments environment other).value = ran.value) := by
  intro done
  refine ⟨Command.code_cases host request manner fs, Command.code_eq_two_iff host request manner fs,
    ?_, Command.code_eq_three_iff host request manner fs, ?_, ?_⟩
  · intro failure h
    have hy := Command.generate_of_refused host manner h
    exact ⟨hy.1, hy.2, hy.files⟩
  · intro hc location contents
    obtain ⟨plan, fault, h, hd, hw⟩ := (Command.code_eq_three_iff host request manner fs).1 hc
    exact Command.file_iff_of_write_error manner h hd hw location contents
  · intro arguments environment ran
    refine ⟨run_code_eq_one_iff arguments environment fs, fun hc => ?_⟩
    obtain ⟨invocation, fault, hp, hf⟩ := (run_code_eq_one_iff arguments environment fs).1 hc
    have hrun := run_of_unknown_format environment hp hf
    simp [ran, hrun]

example : (run ["--format", "yaml", "config"] {} .empty).value.code.number = 1 := by
  decide +kernel

end CommandLine

end MockForge

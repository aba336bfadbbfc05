import MockForge.Command
import MockForge.Proofs.FileSystem.Lookup
import MockForge.Proofs.Generator.Text

/-!
# How a generation ends

A generation only reads before it writes. It refuses the first of its inputs that is not in order,
or it has a plan, which it carries out or shows. Main statements: `ready_or_refused`, and what a
generation yields in each case.
-/

namespace MockForge

/-! ## Jobs -/

namespace Job

variable {ε α β : Type} {job : Job ε α} {next : α → Job ε β} {start : FileSystem}
  {outcome : Except ε α} {operations more : List FileSystem.Operation}

/-- A job ends like this, and these are its operations. -/
def Yields (job : Job ε α) (start : FileSystem) (outcome : Except ε α)
    (operations : List FileSystem.Operation) : Prop :=
  (job.run start).value = outcome ∧ (job.run start).operations = operations

theorem Yields.files (h : job.Yields start outcome operations) :
    (job.run start).files = operations.foldl FileSystem.perform start := by
  rw [(job.run start).files_eq, h.2]

/-- A job that fails is the last one. -/
theorem Yields.bind_error {fault : ε} (h : job.Yields start (.error fault) operations) :
    Yields (job >>= next) start (.error fault) operations := by
  obtain ⟨hv, ho⟩ := h
  constructor
  · rw [ExceptT.run_bind, Task.value_bind, hv]
    rfl
  · rw [ExceptT.run_bind, Task.operations_bind, hv, ho]
    exact List.append_nil _

theorem Yields.bind_ok {a : α} {result : Except ε β} (h : job.Yields start (.ok a) operations)
    (hn : (next a).Yields (operations.foldl FileSystem.perform start) result more) :
    Yields (job >>= next) start result (operations ++ more) := by
  obtain ⟨hv, rfl⟩ := h
  rw [← (job.run start).files_eq] at hn
  obtain ⟨hr, rfl⟩ := hn
  constructor
  · rw [ExceptT.run_bind, Task.value_bind, hv, ← hr]
  · rw [ExceptT.run_bind, Task.operations_bind, hv]

/-- What comes after a job that only reads starts where the job does. -/
theorem Yields.read_bind {a : α} {result : Except ε β} (h : job.Yields start (.ok a) [])
    (hn : (next a).Yields start result operations) :
    Yields (job >>= next) start result operations := h.bind_ok hn

/-- A job after which there is only something to read. -/
theorem Yields.bind_read {a : α} {result : Except ε β} (h : job.Yields start (.ok a) operations)
    (hn : (next a).Yields (operations.foldl FileSystem.perform start) result []) :
    Yields (job >>= next) start result operations := by
  have hb := h.bind_ok hn
  rwa [List.append_nil] at hb

theorem yields_pure (a : α) : Yields (pure a : Job ε α) start (.ok a) [] := ⟨rfl, rfl⟩

theorem yields_mk (task : Task (Except ε α)) (start : FileSystem) :
    Yields (ExceptT.mk task) start (task start).value (task start).operations := ⟨rfl, rfl⟩

theorem yields_ofRun (run : Run ε α) (start : FileSystem) :
    (ofRun run).Yields start run.outcome [] := ⟨rfl, rfl⟩

theorem yields_forM_note {ι : Type} (notice : ι → Notice) (items : List ι) :
    Yields (items.forM fun item => (note (notice item) : Job ε Unit)) start (.ok ()) [] := by
  induction items with
  | nil => exact yields_pure ()
  | cons item rest ih => exact Yields.read_bind ⟨rfl, rfl⟩ ih

/-- A fault gets a context, and all else stays. -/
theorem Yields.inContext (h : job.Yields start outcome operations) (context : String)
    (wrap : ε → Link) :
    (inContext context wrap job).Yields start
      (outcome.mapError fun fault => ⟨[.text context], wrap fault⟩) operations := by
  obtain ⟨hv, rfl⟩ := h
  cases outcome with
  | error fault | ok a =>
    constructor
    · rw [Job.inContext, ExceptT.run_mk, Task.value_bind, hv]
      rfl
    · rw [Job.inContext, ExceptT.run_mk, Task.operations_bind, hv]
      exact List.append_nil _

end Job

/-! ## Reading -/

variable {fs : FileSystem} {path : Path} {fault : Fault}

/-- The text of a file in a file system. -/
def textAt (fs : FileSystem) (path : Path) : Except Fault String :=
  (fs.readText path).mapError (.file path.spelling)

/-- The settings that a file in a file system holds. -/
def settingsAt (fs : FileSystem) (path : Path) : Except Fault Settings := do
  Settings.ofToml (← textAt fs path)

/-- The header that a file in a file system describes. -/
def headerAt (fs : FileSystem) (path : Path) : Except Fault Header := do
  Header.ofJson (← textAt fs path)

theorem readFile_yields (fs : FileSystem) (path : Path) :
    (readFile path).Yields fs (textAt fs path) [] := by
  refine Job.Yields.read_bind (a := fs) ⟨rfl, rfl⟩ ?_
  unfold textAt
  cases fs.readText path with
  | error fault => exact ⟨rfl, rfl⟩
  | ok text => exact Job.yields_pure text

/-- What is read from the text of a file, after something is told. -/
theorem readFile_bind_yields {α : Type} (fs : FileSystem) (path : Path) (notice : Notice)
    (read : String → Except Fault α) :
    Job.Yields (do
      let text ← readFile path
      Job.note notice
      ExceptT.mk (pure (read text))) fs (textAt fs path >>= read) [] := by
  have htext := readFile_yields fs path
  cases ht : textAt fs path with
  | error fault => exact (ht ▸ htext).bind_error
  | ok text => exact (ht ▸ htext).read_bind (Job.Yields.read_bind ⟨rfl, rfl⟩ (Job.yields_mk _ _))

theorem settings_ofFile_yields (fs : FileSystem) (path : Path) :
    (Settings.ofFile path).Yields fs (settingsAt fs path) [] :=
  readFile_bind_yields fs path (.settingsRead path.spelling) Settings.ofToml

theorem header_ofFile_yields (fs : FileSystem) (path : Path) :
    (Header.ofFile path).Yields fs (headerAt fs path) [] :=
  readFile_bind_yields fs path (.descriptorsRead path.spelling) Header.ofJson

/-- The settings that a command uses: the standard ones where there is no file. -/
def settingsFor (fs : FileSystem) : Option Path → Except Fault Settings
  | none => .ok {}
  | some path => settingsAt fs path

/-- Settings that were read are valid. -/
theorem validated_of_settingsFor {settings : Settings} {path : Option Path}
    (h : settingsFor fs path = .ok settings) : settings.validated = .ok settings := by
  cases path with
  | none =>
      cases h
      decide +kernel
  | some path =>
      obtain ⟨document, -, h⟩ := bind_eq_ok.1 h
      unfold Settings.ofToml at h
      split at h
      · cases h
      · split at h
        · cases h
        · next read _ =>
          have hv := h
          unfold Settings.validated at hv
          split at hv
          · cases hv
          · rw [Except.ok.injEq] at hv
            exact hv ▸ h

namespace Command

theorem loadSettings_of_ok {path : Option Path} {settings : Settings}
    (h : settingsFor fs path = .ok settings) :
    (loadSettings path).Yields fs (.ok settings) [] := by
  have hvalid : Job.Yields (ExceptT.mk (pure settings.validated)) fs (.ok settings) [] :=
    ⟨validated_of_settingsFor h, rfl⟩
  cases path with
  | none =>
      cases h
      exact (Job.yields_pure _).read_bind (hvalid.inContext _ _)
  | some path =>
      have hread := settings_ofFile_yields fs path
      rw [show settingsAt fs path = .ok settings from h] at hread
      exact Job.Yields.read_bind ⟨rfl, rfl⟩ ((hread.inContext _ _).read_bind (hvalid.inContext _ _))

theorem loadSettings_of_error (h : settingsAt fs path = .error fault) :
    (loadSettings (some path)).Yields fs
      (.error ⟨[.text ("failed to load configuration from " ++ path.spelling)], .fault fault⟩)
      [] := by
  have hread := settings_ofFile_yields fs path
  rw [h] at hread
  exact Job.Yields.read_bind ⟨rfl, rfl⟩ (hread.inContext _ _).bind_error

/-! ## Plans -/

variable {request : Request} {plan : Plan} {failure : Failure}

/-- What the steps of a generation read when it follows settings. -/
def contextFor (module : String) (settings : Settings) : Context where
  module := ⟨module⟩
  mock := .derive settings.mockPrefix ⟨module⟩
  indent := settings.tab
  symbolPrefix := settings.mockPrefix
  includeBlock := settings.includeBlock
  frameworkHeader := settings.frameworkHeader

/-- The mock of a module, with no plugins and with values of zeros. -/
def mockFor (module : String) (settings : Settings) (header : Header) : Mock :=
  MockText.mock (contextFor module settings) [] .zeroed header.functions

/-- All inputs of a generation are in order, and this is its plan. -/
structure Ready (fs : FileSystem) (request : Request) (plan : Plan) : Prop where
  module : Text.isBlank request.module = false
  settings : ∃ settings, settingsFor fs request.settings = .ok settings ∧
    plan.settings = request.redirect settings
  header : headerAt fs request.descriptors = .ok plan.header
  mock : plan.mock = mockFor request.module plan.settings plan.header

/-- The first input of a generation that is not in order, and what is said of it. -/
inductive Refused (fs : FileSystem) (request : Request) : Failure → Prop where
  | module (hm : Text.isBlank request.module) :
      Refused fs request ⟨[], .fault (.argument "module name cannot be empty")⟩
  | settings {path : Path} {fault : Fault} (hm : Text.isBlank request.module = false)
      (hp : request.settings = some path) (hs : settingsAt fs path = .error fault) :
      Refused fs request
        ⟨[.text ("failed to load configuration from " ++ path.spelling)], .fault fault⟩
  | descriptors {settings : Settings} {fault : Fault} (hm : Text.isBlank request.module = false)
      (hs : settingsFor fs request.settings = .ok settings)
      (hd : headerAt fs request.descriptors = .error fault) :
      Refused fs request
        ⟨[.text ("failed to read descriptors from " ++ request.descriptors.spelling)],
          .fault fault⟩

theorem ready_or_refused (fs : FileSystem) (request : Request) :
    (∃ plan, Ready fs request plan) ∨ ∃ failure, Refused fs request failure := by
  cases hm : Text.isBlank request.module with
  | true => exact .inr ⟨_, .module hm⟩
  | false =>
      cases hs : settingsFor fs request.settings with
      | error fault =>
          cases hp : request.settings with
          | none =>
              rw [hp] at hs
              cases hs
          | some path =>
              rw [hp] at hs
              exact .inr ⟨_, .settings hm hp hs⟩
      | ok settings =>
          cases hd : headerAt fs request.descriptors with
          | error fault => exact .inr ⟨_, .descriptors hm hs hd⟩
          | ok header =>
              exact .inl ⟨⟨request.redirect settings, header,
                mockFor request.module (request.redirect settings) header⟩,
                hm, ⟨settings, hs, rfl⟩, hd, rfl⟩

/-- With settings as the source of its context, and without plugins, a generation cannot fail. -/
theorem outcome_generate_mockFor (module : String) (settings : Settings) (header : Header) :
    (Generator.generate { context := contextFor module settings } header.functions).outcome =
      .ok (mockFor module settings header) :=
  Generator.outcome_generate_zeroed (contextFor module settings) header.functions

theorem prepare_of_ready (h : Ready fs request plan) :
    (prepare request).Yields fs (.ok plan) [] := by
  obtain ⟨settings, header, mock⟩ := plan
  obtain ⟨hm, ⟨loaded, hs, he⟩, hd, hmock⟩ := h
  dsimp only at he hd hmock
  subst he hmock
  have hread := header_ofFile_yields fs request.descriptors
  rw [hd] at hread
  have hcontext : (Job.ofRun (Context.resolve (request.redirect loaded).source
      ⟨request.module⟩)).Yields fs (.ok (contextFor request.module (request.redirect loaded))) [] :=
    ⟨rfl, rfl⟩
  have hmock := Job.yields_ofRun (Generator.generate
    { context := contextFor request.module (request.redirect loaded) } header.functions) fs
  rw [outcome_generate_mockFor] at hmock
  unfold prepare
  rw [if_neg (by simp [hm])]
  refine (loadSettings_of_ok hs).read_bind ((hread.inContext _ _).read_bind ?_)
  refine (Job.yields_forM_note _ _).read_bind ((hcontext.inContext _ _).read_bind ?_)
  exact (hmock.inContext _ _).read_bind (Job.yields_pure _)

theorem prepare_of_refused (h : Refused fs request failure) :
    (prepare request).Yields fs (.error failure) [] := by
  unfold prepare
  cases h with
  | module hm =>
      rw [if_pos hm]
      exact Job.Yields.bind_error ⟨rfl, rfl⟩
  | settings hm hp hs =>
      rw [if_neg (by simp [hm]), hp]
      exact (loadSettings_of_error hs).bind_error
  | descriptors hm hs hd =>
      have hread := header_ofFile_yields fs request.descriptors
      rw [hd] at hread
      rw [if_neg (by simp [hm])]
      exact (loadSettings_of_ok hs).read_bind (hread.inContext _ _).bind_error

/-! ## The whole -/

theorem generate_of_refused (host : Host) (manner : Manner) (h : Refused fs request failure) :
    (generate host request manner).Yields fs (.error failure) [] :=
  (prepare_of_refused h).bind_error

theorem deliver_of_ok {host : Host} {base : Path} {mock : Mock} {paths : List Path}
    (hw : (Writer.write ⟨base, host⟩ mock fs).value = .ok paths) :
    (deliver host false base mock).Yields fs (.ok (paths.map Path.spelling))
      (Writer.write ⟨base, host⟩ mock fs).operations := by
  have hwrite := Job.yields_mk (Writer.write ⟨base, host⟩ mock) fs
  rw [hw] at hwrite
  exact (hwrite.inContext _ _).bind_read (Job.yields_pure _)

theorem deliver_of_error {host : Host} {base : Path} {mock : Mock} {fault : WriteFault}
    (hw : (Writer.write ⟨base, host⟩ mock fs).value = .error fault) :
    (deliver host false base mock).Yields fs
      (.error ⟨[.text "failed to write generated mock"], .write fault⟩)
      (Writer.write ⟨base, host⟩ mock fs).operations := by
  have hwrite := Job.yields_mk (Writer.write ⟨base, host⟩ mock) fs
  rw [hw] at hwrite
  exact (hwrite.inContext _ _).bind_error

/-- After a delivery nothing fails, and nothing is done but telling. -/
theorem generate_of_delivered {host : Host} {files : List String}
    {operations : List FileSystem.Operation} (manner : Manner) (h : Ready fs request plan)
    (hd : (deliver host request.dryRun plan.settings.mockPath plan.mock).Yields fs (.ok files)
      operations) :
    (generate host request manner).Yields fs (.ok (plan.printed request manner files))
      operations :=
  (prepare_of_ready h).read_bind
    (hd.bind_read (Job.Yields.read_bind ⟨rfl, rfl⟩ (Job.yields_pure _)))

theorem generate_of_dryRun (host : Host) (manner : Manner) (h : Ready fs request plan)
    (hd : request.dryRun = true) :
    (generate host request manner).Yields fs
      (.ok (plan.printed request manner (plan.mock.files.map MockFile.path))) [] := by
  apply generate_of_delivered manner h
  rw [hd]
  exact Job.yields_pure _

theorem generate_of_write_ok {host : Host} {paths : List Path} (manner : Manner)
    (h : Ready fs request plan) (hd : request.dryRun = false)
    (hw : (Writer.write ⟨plan.settings.mockPath, host⟩ plan.mock fs).value = .ok paths) :
    (generate host request manner).Yields fs
      (.ok (plan.printed request manner (paths.map Path.spelling)))
      (Writer.write ⟨plan.settings.mockPath, host⟩ plan.mock fs).operations := by
  apply generate_of_delivered manner h
  rw [hd]
  exact deliver_of_ok hw

theorem generate_of_write_error {host : Host} {fault : WriteFault} (manner : Manner)
    (h : Ready fs request plan) (hd : request.dryRun = false)
    (hw : (Writer.write ⟨plan.settings.mockPath, host⟩ plan.mock fs).value = .error fault) :
    (generate host request manner).Yields fs
      (.error ⟨[.text "failed to write generated mock"], .write fault⟩)
      (Writer.write ⟨plan.settings.mockPath, host⟩ plan.mock fs).operations := by
  have hdeliver := deliver_of_error hw
  rw [← hd] at hdeliver
  exact (prepare_of_ready h).read_bind hdeliver.bind_error

end Command

end MockForge

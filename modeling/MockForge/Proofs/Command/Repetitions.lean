import MockForge.Proofs.Command.DryRun
import MockForge.Proofs.Command.ExitCodes
import MockForge.Proofs.Generator.Frame
import MockForge.Proofs.Generator.Notices
import MockForge.Proofs.Header.Duplicates
import MockForge.Proofs.Header.RoundTrip
import MockForge.Proofs.Writer.Notices

/-!
# What a generation says of repeated names

A generation says of each repeated name once that it is repeated, in the order of the header's
report, and its source still has a stub for every function. Main statement:
`repeated_names_told`.
-/

namespace MockForge

/-- Whether a notice says that several functions have one name. -/
def Notice.isRepetition : Notice → Bool
  | .declaredTwice .. => true
  | _ => false

/-- What a task said of repeated names, in order. -/
def Performed.repetitions {start : FileSystem} {α : Type} (performed : Performed start α) :
    List Notice :=
  performed.notices.filter Notice.isRepetition

/-! ## Jobs that say nothing of repeated names -/

namespace Job

variable {ε α β : Type} {job : Job ε α} {next : α → Job ε β} {start : FileSystem}
  {notice : Notice}

/-- Wherever it starts, a job says nothing of repeated names. -/
def Quiet (job : Job ε α) : Prop := Task.Tells job.run fun notice => notice.isRepetition = false

theorem Quiet.repetitions_eq_nil (h : job.Quiet) (start : FileSystem) :
    (job.run start).repetitions = [] := by
  rw [Performed.repetitions, List.filter_eq_nil_iff]
  intro notice hm
  rw [h start notice hm]
  exact Bool.false_ne_true

theorem quiet_outcome (outcome : Except ε α) : Quiet (ExceptT.mk (pure outcome)) :=
  Task.tells_pure outcome

theorem quiet_note (h : notice.isRepetition = false) : Quiet (note notice : Job ε Unit) :=
  (Task.tells_note h).bind fun () => Task.tells_pure _

theorem quiet_look : Quiet (liftM Task.look : Job ε FileSystem) :=
  Task.tells_look.bind fun _ => Task.tells_pure _

theorem quiet_ofRun {run : Run Fault α} (h : run.Tells fun notice => notice.isRepetition = false) :
    Quiet (ofRun run) := fun _ => h

theorem Quiet.bind (h : job.Quiet) (hn : ∀ a, (next a).Quiet) : Quiet (job >>= next) := by
  rw [Quiet, ExceptT.run_bind]
  refine Task.Tells.bind h fun outcome => ?_
  cases outcome with
  | error fault => exact Task.tells_pure _
  | ok a => exact hn a

theorem Quiet.inContext (h : job.Quiet) (context : String) (wrap : ε → Link) :
    Quiet (inContext context wrap job) := by
  refine Task.Tells.bind h fun outcome => ?_
  cases outcome <;> exact Task.tells_pure _

/-! ## What is said around them -/

theorem repetitions_bind_ok {a : α} (h : job.Yields start (.ok a) []) :
    ((job >>= next).run start).repetitions =
      (job.run start).repetitions ++ ((next a).run start).repetitions := by
  rw [Performed.repetitions, ExceptT.run_bind, Task.notices_bind, h.1, h.files,
    List.filter_append]
  rfl

/-- What is said after a quiet job is all that is said. -/
theorem Quiet.repetitions_bind {a : α} (h : job.Quiet) (hy : job.Yields start (.ok a) []) :
    ((job >>= next).run start).repetitions = ((next a).run start).repetitions := by
  rw [repetitions_bind_ok hy, h.repetitions_eq_nil start]
  rfl

/-- What is said before quiet jobs is all that is said. -/
theorem repetitions_bind_quiet (job : Job ε α) (start : FileSystem) (hn : ∀ a, (next a).Quiet) :
    ((job >>= next).run start).repetitions = (job.run start).repetitions := by
  rw [ExceptT.run_bind, Performed.repetitions, Task.notices_bind, List.filter_append]
  cases (job.run start).value with
  | error fault => exact List.append_nil _
  | ok a =>
      have hnone := (hn a).repetitions_eq_nil (job.run start).files
      rw [Performed.repetitions] at hnone
      rw [hnone]
      exact List.append_nil _

theorem repetitions_forM_note {ι : Type} (notice : ι → Notice)
    (h : ∀ item, (notice item).isRepetition = true) (items : List ι) :
    ((items.forM fun item => (note (notice item) : Job ε Unit)).run start).repetitions =
      items.map notice := by
  induction items with
  | nil => rfl
  | cons item rest ih =>
      refine (repetitions_bind_ok ⟨rfl, rfl⟩).trans ?_
      rw [List.map_cons, ← ih]
      exact congrArg (· ++ _) (List.filter_cons_of_pos (h item))

end Job

/-! ## Reading and writing -/

open Job (quiet_outcome quiet_note quiet_look quiet_ofRun)

theorem readFile_quiet (path : Path) : (readFile path).Quiet := by
  refine quiet_look.bind fun files => ?_
  split
  · exact quiet_outcome _
  · exact quiet_outcome _

theorem settings_ofFile_quiet (path : Path) : (Settings.ofFile path).Quiet :=
  (readFile_quiet path).bind fun _ => (quiet_note rfl).bind fun () => quiet_outcome _

theorem header_ofFile_quiet (path : Path) : (Header.ofFile path).Quiet :=
  (readFile_quiet path).bind fun _ => (quiet_note rfl).bind fun () => quiet_outcome _

namespace Command

variable {fs : FileSystem} {request : Request} {plan : Plan}

theorem loadSettings_quiet (path : Option Path) : (loadSettings path).Quiet := by
  cases path with
  | none => exact (quiet_outcome _).bind fun _ => (quiet_outcome _).inContext _ _
  | some path =>
      exact (quiet_note rfl).bind fun () =>
        ((settings_ofFile_quiet path).inContext _ _).bind fun _ => (quiet_outcome _).inContext _ _

theorem generation_quiet (context : Context) (functions : List Signature) :
    (Job.ofRun (Generator.generate { context } functions)).Quiet := by
  apply quiet_ofRun
  exact Generator.generate_tells (Generator.given_tells_zeroed context) (fun _ _ => rfl)
    (fun _ _ => rfl) functions

theorem deliver_quiet (host : Host) (dryRun : Bool) (base : Path) (mock : Mock) :
    (deliver host dryRun base mock).Quiet := by
  cases dryRun with
  | true => exact quiet_outcome _
  | false =>
      have hwrite : Job.Quiet (ExceptT.mk (Writer.write ⟨base, host⟩ mock)) := by
        refine (Writer.write_tells ⟨base, host⟩ mock).weaken fun notice hp => ?_
        cases hp <;> rfl
      exact (hwrite.inContext _ _).bind fun _ => quiet_outcome _

/-! ## Generations -/

theorem prepare_repetitions (h : Ready fs request plan) :
    ((prepare request).run fs).repetitions =
      plan.header.duplicates.map fun name => .declaredTwice name request.descriptors.spelling := by
  obtain ⟨settings, hs, -⟩ := h.settings
  have hread := header_ofFile_yields fs request.descriptors
  rw [h.header] at hread
  unfold prepare
  rw [if_neg (by simp [h.module])]
  -- Reading is quiet, and so is all that comes after the notes about the header.
  rw [(loadSettings_quiet _).repetitions_bind (loadSettings_of_ok hs),
    ((header_ofFile_quiet _).inContext _ _).repetitions_bind (hread.inContext _ _),
    Job.repetitions_bind_quiet, Job.repetitions_forM_note _ fun _ => rfl]
  intro
  refine ((quiet_ofRun ?_).inContext _ _).bind fun context => ?_
  · exact Run.tells_note rfl
  · exact ((generation_quiet context _).inContext _ _).bind fun _ => quiet_outcome _

theorem generate_repetitions (host : Host) (manner : Manner) (h : Ready fs request plan) :
    ((generate host request manner).run fs).repetitions =
      plan.header.duplicates.map fun name => .declaredTwice name request.descriptors.spelling := by
  rw [generate, Job.repetitions_bind_quiet, prepare_repetitions h]
  intro plan
  exact (deliver_quiet _ _ _ _).bind fun _ => (quiet_note rfl).bind fun () => quiet_outcome _

/-- The source of the mock of a module. -/
def sourceFor (module : String) (settings : Settings) (header : Header) : String :=
  MockText.source (settings.mockPrefix ++ module) (contextFor module settings) [] .zeroed
    header.functions

/-- A run shows a text at the end of what it prints, or leaves it in a file. It can only fail to
write it. -/
structure Delivers (ran : Performed fs (Except Failure Printed)) (dryRun : Bool) (path : Path)
    (text : String) : Prop where
  shown : dryRun = true → ∃ printed front, ran.value = .ok printed ∧ printed.out = front ++ text
  written : dryRun = false → ∀ printed, ran.value = .ok printed →
    ran.files.contents path = .ok text.toUTF8
  unwritten : ∀ failure, ran.value = .error failure → failure.cause.isWrite = true

theorem Ready.source_eq (h : Ready fs request plan) :
    ∃ header source : MockFile, plan.mock = ⟨plan.mock.name, [header, source]⟩ ∧
      header.path = plan.mock.name.text ++ ".h" ∧ source.path = plan.mock.name.text ++ ".c" ∧
      source.content = sourceFor request.module plan.settings plan.header := by
  rw [h.mock]
  exact ⟨_, _, rfl, rfl, rfl, rfl⟩

theorem generate_delivers (host : Host) (manner : Manner) (h : Ready fs request plan) :
    Delivers ((generate host request manner).run fs) request.dryRun
      (plan.settings.mockPath.join ⟨plan.mock.name.text ++ ".c"⟩)
      (sourceFor request.module plan.settings plan.header) := by
  obtain ⟨header, source, hmock, hh, hs, hcontent⟩ := h.source_eq
  rw [← hs, ← hcontent]
  constructor
  case shown =>
    intro hd
    refine ⟨_, line ("// ---- " ++ header.path ++ " ----") ++ header.content ++
      line ("// ---- " ++ source.path ++ " ----"), (generate_of_dryRun host manner h hd).1, ?_⟩
    rw [Plan.printed, if_pos hd, hmock]
    exact preview_pair plan.mock.name header source
  case written =>
    intro hd printed hok
    exact (h.written hd hmock hh hs hok).2 source (List.mem_cons_of_mem _ List.mem_cons_self)
  case unwritten =>
    intro failure he
    rcases h.ok_or_write_error host manner with ⟨printed, hok⟩ | ⟨hd, fault, hw⟩
    · rw [hok] at he
      cases he
    · rw [(generate_of_write_error manner h hd hw).1] at he
      cases he
      rfl

/-- The report of repeated names is the only list that holds, without repetitions, the names that
at least two functions have, in the order of the first functions that have them. It is empty where
all names are different, and reordering the functions does not change which names it holds. A
generation with its input in order warns once of each name in the report and in its order, and of
nothing else of this kind. It only fails if it cannot write, and the source that it shows or leaves
has a stub for each function, in the order of the header. -/
theorem repeated_names_told (h : Header) :
    (∀ names, names = h.duplicates ↔ h.IsReport names) ∧
    (h.duplicates = [] ↔ h.functions.Pairwise fun f g => f.name ≠ g.name) ∧
    (∀ other : Header, h.functions.Perm other.functions →
      ∀ name, name ∈ h.duplicates ↔ name ∈ other.duplicates) ∧
    ∀ (host : Host) (request : Request) (manner : Manner) (fs : FileSystem) (plan : Plan),
      Ready fs request plan → plan.header = h →
      let ran := (generate host request manner).run fs
      ran.repetitions.map (fun notice => (notice.level, notice.message)) =
        h.duplicates.map (fun name => (.warning, "Function '" ++ name ++
          "' is declared more than once in " ++ request.descriptors.spelling)) ∧
      Delivers ran request.dryRun (plan.settings.mockPath.join ⟨plan.mock.name.text ++ ".c"⟩)
        (sourceFor request.module plan.settings h) ∧
      ∃ before after : String, ∀ other : Header, other.functions.isEmpty = h.functions.isEmpty →
        sourceFor request.module plan.settings other = before ++
          String.join (other.functions.map (MockText.stub [] .zeroed plan.settings.tab)) ++
            after := by
  refine ⟨fun names => ⟨?_, Header.IsReport.eq_duplicates⟩, Header.duplicates_eq_nil_iff,
    fun other => Header.mem_duplicates_of_perm, ?_⟩
  · rintro rfl
    exact h.isReport_duplicates
  · rintro host request manner fs plan hready rfl
    refine ⟨?_, generate_delivers host manner hready, ?_⟩
    · rw [generate_repetitions host manner hready, List.map_map]
      rfl
    · obtain ⟨before, after, hframe⟩ := Generator.exists_frame
        (contextFor request.module plan.settings) plan.header.functions
      exact ⟨before, after, fun other => hframe other.functions⟩

/-- What is described is read, with its parameters in their plainest form. -/
theorem headerAt_describing (h : Header) :
    headerAt (describing h) ⟨"uart.json"⟩ = .ok ⟨h.functions.map Signature.canonical⟩ := by
  have hcontents : (describing h).contents ⟨"uart.json"⟩ = .ok h.toJson.compactText.toUTF8 := rfl
  have hutf8 : String.fromUTF8? h.toJson.compactText.toUTF8 = some h.toJson.compactText :=
    dif_pos h.toJson.compactText.isValidUTF8
  have hread : (describing h).readText ⟨"uart.json"⟩ = .ok h.toJson.compactText :=
    bind_eq_ok.2 ⟨_, hcontents, by rw [hutf8]⟩
  have htext : textAt (describing h) ⟨"uart.json"⟩ = .ok h.toJson.compactText := by
    rw [textAt, hread]
    rfl
  refine bind_eq_ok.2 ⟨_, htext, ?_⟩
  rw [Header.ofJson, Header.ofJson?, Json.document_of_reads h.reads_toJson]
  rfl

/-- A header in which one name comes first and last. -/
def wrapped : Header :=
  ⟨[⟨"uart_read", "int", none, none, .void, none⟩, ⟨"uart_init", "void", none, none, .empty, none⟩,
    ⟨"uart_read", "void", none, none, .empty, none⟩]⟩

theorem wrapping_name_told :
    ("uart_read" ∈ wrapped.duplicates ↔
      "uart_read" ∈ (⟨wrapped.functions.reverse⟩ : Header).duplicates) ∧
    ((generate .counting { descriptors := ⟨"uart.json"⟩, module := "uart" } {}).run
      (describing wrapped)).repetitions.map (fun notice => (notice.level, notice.message)) =
        [(.warning, "Function 'uart_read' is declared more than once in uart.json")] := by
  obtain ⟨-, -, hperm, hrun⟩ := repeated_names_told wrapped
  have hready : Ready (describing wrapped) { descriptors := ⟨"uart.json"⟩, module := "uart" }
      ⟨{}, wrapped, mockFor "uart" {} wrapped⟩ :=
    ⟨by decide +kernel, ⟨{}, rfl, rfl⟩, headerAt_describing wrapped, rfl⟩
  refine ⟨hperm ⟨_⟩ (List.reverse_perm _).symm _, (hrun .counting _ {} _ _ hready rfl).1.trans ?_⟩
  decide +kernel

end Command

end MockForge

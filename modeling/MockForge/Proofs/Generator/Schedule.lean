import MockForge.Generator

/-!
# The schedule of calls

The calls that a generation makes of its collaborators stand on a schedule that its functions and
its plugins fix. A run keeps to it up to the first call that fails, and ends with the fault of that
call.
-/

namespace MockForge

variable {α β : Type}

/-- A call on a schedule, and the fault that a run ends with if the call fails. -/
structure Turn where
  call : Call
  fault? : Option Fault

/-- The fault of an answer, if it is one. -/
def faultOf (answer : Except Fault α) : Option Fault :=
  match answer with
  | .error fault => some fault
  | .ok _ => none

/-! ## Keeping to a schedule -/

namespace Run

/-- A run keeps to a schedule: it makes all its calls when it succeeds, and when it fails, those up
to the first that fails, and no other. -/
def Follows (run : Run Fault α) (turns : List Turn) : Prop :=
  ∃ made pending, turns = made ++ pending ∧ run.calls = made.map Turn.call ∧
    match run.outcome with
    | .ok _ => pending = [] ∧ ∀ turn ∈ made, turn.fault? = none
    | .error fault => ∃ before last, made = before ++ [last] ∧
        (∀ turn ∈ before, turn.fault? = none) ∧ last.fault? = some fault

theorem follows_nil {run : Run Fault α} {a : α} (hc : run.calls = [])
    (ho : run.outcome = .ok a) : run.Follows [] := by
  refine ⟨[], [], rfl, hc, ?_⟩
  rw [ho]
  simp

theorem calls_append (events more : List Event) (outcome : Except Fault α) :
    calls ⟨events ++ more, outcome⟩ = calls ⟨events, outcome⟩ ++ calls ⟨more, outcome⟩ :=
  List.filterMap_append

/-- After a run that keeps to a schedule, another goes on with what comes next on it. -/
theorem Follows.bind {run : Run Fault α} {next : α → Run Fault β} {turns more : List Turn}
    (h : run.Follows turns) (hn : ∀ a, run.outcome = .ok a → (next a).Follows more) :
    (run >>= next).Follows (turns ++ more) := by
  obtain ⟨made, pending, rfl, hcalls, hend⟩ := h
  cases ho : run.outcome with
  | error fault =>
      rw [ho] at hend
      rw [bind_of_error ho]
      exact ⟨made, pending ++ more, by rw [List.append_assoc], hcalls, hend⟩
  | ok a =>
      rw [ho] at hend
      obtain ⟨rfl, hmade⟩ := hend
      obtain ⟨later, rest, rfl, hmore, hend⟩ := hn a ho
      rw [bind_of_ok ho]
      refine ⟨made ++ later, rest, by simp, ?_, ?_⟩
      · rw [calls_append, List.map_append, ← hcalls, ← hmore]
        rfl
      · cases hr : (next a).outcome with
        | ok b =>
            rw [hr] at hend
            obtain ⟨hrest, hlater⟩ := hend
            exact ⟨hrest, List.forall_mem_append.2 ⟨hmade, hlater⟩⟩
        | error fault =>
            rw [hr] at hend
            obtain ⟨before, last, rfl, hbefore, hlast⟩ := hend
            refine ⟨made ++ before, last, by rw [List.append_assoc], ?_, hlast⟩
            exact List.forall_mem_append.2 ⟨hmade, hbefore⟩

theorem Follows.map {run : Run Fault α} {turns : List Turn} (h : run.Follows turns) (f : α → β) :
    (f <$> run).Follows turns := by
  rw [map_eq_pure_bind, ← List.append_nil turns]
  exact h.bind fun a _ => follows_nil (a := f a) rfl rfl

/-- A collaborator that answers as told takes one turn. -/
theorem follows_ask (call : Call) (answer : Except Fault α) :
    (do Run.call call; Run.ofOutcome answer).Follows [⟨call, faultOf answer⟩] := by
  cases answer with
  | ok a => exact ⟨[_], [], rfl, rfl, rfl, by simp [faultOf]⟩
  | error fault => exact ⟨[_], [], rfl, rfl, [], _, rfl, by simp, rfl⟩

end Run

namespace Emission

theorem follows_bind {first : Emission Fault α} {next : α → Emission Fault β}
    {turns more : List Turn} (h : first.run.Follows turns) (hn : ∀ a, (next a).run.Follows more) :
    (first >>= next).run.Follows (turns ++ more) := by
  rw [run_bind]
  exact h.bind fun a _ => hn a

/-- Emitting takes no turn. -/
theorem follows_emit (fragments : List String) :
    (emit fragments : Emission Fault Unit).run.Follows [] :=
  Run.follows_nil rfl rfl

theorem follows_emit_bind {fragments : List String} {next : Unit → Emission Fault α}
    {turns : List Turn} (h : (next ()).run.Follows turns) :
    (emit fragments >>= next).run.Follows turns := by
  rw [← List.nil_append turns]
  exact follows_bind (follows_emit fragments) fun () => h

theorem follows_bind_emit {first : Emission Fault α} {fragments : α → List String}
    {turns : List Turn} (h : first.run.Follows turns) :
    (first >>= fun a => emit (fragments a)).run.Follows turns := by
  rw [← List.append_nil turns]
  exact follows_bind h fun a => follows_emit (fragments a)

theorem follows_if_emit {c : Prop} [Decidable c] {fragments : List String}
    {next : Unit → Emission Fault α} {turns : List Turn} (h : (next ()).run.Follows turns) :
    (if c then emit fragments >>= next else next ()).run.Follows turns := by
  by_cases hc : c
  · rw [if_pos hc]
    exact follows_emit_bind h
  · rw [if_neg hc]
    exact h

theorem follows_ofFragments {run : Run Fault (List String)} {turns : List Turn}
    (h : run.Follows turns) : (ofFragments run).run.Follows turns :=
  follows_bind_emit h

theorem follows_forEach {ι : Type} {step : ι → Emission Fault Unit} {turns : ι → List Turn}
    (h : ∀ item, (step item).run.Follows (turns item)) (items : List ι) :
    (forEach step items).run.Follows (items.flatMap turns) := by
  induction items with
  | nil => exact Run.follows_nil (a := ()) rfl rfl
  | cons item rest ih =>
      rw [forEach, run_bind, List.flatMap_cons]
      exact (h item).bind fun _ _ => ih

end Emission

/-! ## Collaborators -/

/-- What a plugin answers. -/
structure Script where
  name : String
  includes : Except Fault (List String)
  contribution : Hook → Signature → Except Fault (List String)

namespace Script

/-- The plugin that answers so. -/
def plugin (script : Script) : Plugin :=
  .scripted script.name script.includes script.contribution

/-- The fault that a failure of the plugin leads to: one that is attributed to a plugin already
stays as it is. -/
def blamed (script : Script) (hook : String) (fault : Fault) : Fault :=
  if fault.isPlugin then fault else .plugin script.name hook fault.message

/-- The turn that asks for includes. -/
def includesTurn (script : Script) : Turn :=
  ⟨.includes script.name, (faultOf script.includes).map (script.blamed "include_files")⟩

/-- The turn that asks what the plugin contributes to a hook for a function. -/
def turn (hook : Hook) (function : Signature) (script : Script) : Turn :=
  ⟨.contribution script.name hook function.name,
    (faultOf (script.contribution hook function)).map (script.blamed hook.name)⟩

theorem outcome_blame (script : Script) (hook : String) (fault : Fault) :
    (script.plugin.blame hook fault).outcome = .error (script.blamed hook fault) := by
  rw [blamed]
  by_cases hp : fault.isPlugin <;> simp [Plugin.blame, hp] <;> rfl

theorem calls_blame (plugin : Plugin) (hook : String) (fault : Fault) :
    (plugin.blame hook fault).calls = [] := by
  by_cases hp : fault.isPlugin <;> simp [Plugin.blame, hp] <;> rfl

/-- A failure is attributed without any other call. -/
theorem follows_recover (script : Script) (call : Call) (answer : Except Fault (List String))
    (hook : String) :
    ((do Run.call call; Run.ofOutcome answer : Run Fault (List String)).recover
      (script.plugin.blame hook)).Follows [⟨call, (faultOf answer).map (script.blamed hook)⟩] := by
  cases answer with
  | ok lines => exact ⟨[_], [], rfl, rfl, rfl, by simp [faultOf]⟩
  | error fault =>
      have houtcome : ((do Run.call call; Run.ofOutcome (.error fault) :
          Run Fault (List String)).recover (script.plugin.blame hook)).outcome =
            .error (script.blamed hook fault) := outcome_blame script hook fault
      refine ⟨[_], [], rfl, congrArg (call :: ·) (calls_blame script.plugin hook fault), ?_⟩
      rw [houtcome]
      exact ⟨[], _, rfl, by simp, rfl⟩

end Script

namespace Chain

/-- The plugins of a chain take their turns in the order in which they are registered. -/
theorem follows_collect {hook : String} {ask : Plugin → Run Fault (List String)}
    {turn : Script → Turn} (scripts : List Script)
    (h : ∀ script, ((ask script.plugin).recover (script.plugin.blame hook)).Follows [turn script]) :
    (collect hook ask (scripts.map Script.plugin)).Follows (scripts.map turn) := by
  induction scripts with
  | nil => exact Run.follows_nil rfl rfl
  | cons script rest ih =>
      rw [List.map_cons, collect, List.map_cons]
      refine (h script).bind fun own _ => ?_
      exact ih.map fun others => own ++ others

theorem follows_run (scripts : List Script) (hook : Hook) (function : Signature) :
    (run ⟨scripts.map Script.plugin⟩ hook function).Follows
      (scripts.map (Script.turn hook function)) :=
  follows_collect scripts fun script => script.follows_recover _ _ _

theorem follows_includes (scripts : List Script) :
    (includes ⟨scripts.map Script.plugin⟩).Follows (scripts.map Script.includesTurn) :=
  (follows_collect scripts fun script => script.follows_recover _ _ _).map _

end Chain

/-! ## Resolving a context -/

namespace Context

/-- The turn that asks for a setting. -/
def settingTurn (answers : Setting → Except Fault String) (which : Setting) : Turn :=
  ⟨.setting which, faultOf (answers which)⟩

/-- A source is asked for each value once, and its faults stay as they are. -/
theorem follows_resolve (answers : Setting → Except Fault String) (module : ModuleName) :
    (resolve (.scripted answers) module).Follows
      ([.indent, .symbolPrefix, .includeBlock, .frameworkHeader].map (settingTurn answers)) := by
  refine (Run.follows_ask _ _).bind fun indent _ => ?_
  refine (Run.follows_ask _ _).bind fun symbolPrefix _ => ?_
  refine (Run.follows_ask _ _).bind fun includeBlock _ => ?_
  refine (Run.follows_ask _ _).bind fun frameworkHeader _ => ?_
  exact Run.follows_nil rfl rfl

end Context

/-! ## Generating -/

namespace Generator

variable {g : Generator} {scripts : List Script} {ends : Signature → String → Except Fault String}

/-- The turns of all plugins for each function. -/
def turns (scripts : List Script) (hook : Hook) (functions : List Signature) : List Turn :=
  functions.flatMap fun function => scripts.map (Script.turn hook function)

/-- The turns for the stub of a function: those of the plugins, and one for its end. -/
def stubTurns (scripts : List Script) (ends : Signature → String → Except Fault String)
    (indent : String) (function : Signature) : List Turn :=
  scripts.map (Script.turn .stubStart function) ++ scripts.map (Script.turn .stub function) ++
    [⟨.returns function.name indent, faultOf (ends function indent)⟩]

/-- The schedule of a generation. -/
def schedule (answers : Setting → Except Fault String) (scripts : List Script)
    (ends : Signature → String → Except Fault String) (functions : List Signature) : List Turn :=
  [.indent, .symbolPrefix, .includeBlock, .frameworkHeader].map (Context.settingTurn answers) ++
  turns scripts .declarations functions ++
  scripts.map Script.includesTurn ++
  turns scripts .instanceStructure functions ++
  functions.flatMap (stubTurns scripts ends ((answers .indent).toOption.getD "")) ++
  turns scripts .verify functions ++
  turns scripts .destroy functions

theorem follows_contributions (hp : g.plugins = ⟨scripts.map Script.plugin⟩) (hook : Hook)
    (functions : List Signature) :
    (g.contributions hook functions).run.Follows (turns scripts hook functions) := by
  refine Emission.follows_forEach (fun function => ?_) functions
  rw [hp]
  exact Emission.follows_ofFragments (Chain.follows_run scripts hook function)

theorem follows_header (hp : g.plugins = ⟨scripts.map Script.plugin⟩)
    (functions : List Signature) :
    (g.header functions).run.Follows (turns scripts .declarations functions) := by
  rw [header]
  apply Emission.follows_emit_bind
  apply Emission.follows_bind_emit
  exact follows_contributions hp .declarations functions

theorem follows_sourcePreamble (hp : g.plugins = ⟨scripts.map Script.plugin⟩) (file : String) :
    (g.sourcePreamble file).run.Follows (scripts.map Script.includesTurn) := by
  rw [sourcePreamble, hp]
  apply Emission.follows_emit_bind
  apply Emission.follows_bind_emit
  exact Chain.follows_includes scripts

theorem follows_instanceStructure (hp : g.plugins = ⟨scripts.map Script.plugin⟩)
    (functions : List Signature) :
    (g.instanceStructure functions).run.Follows (turns scripts .instanceStructure functions) := by
  rw [instanceStructure]
  apply Emission.follows_emit_bind
  apply Emission.follows_if_emit
  apply Emission.follows_emit_bind
  apply Emission.follows_bind_emit
  exact follows_contributions hp .instanceStructure functions

theorem follows_implementation (hp : g.plugins = ⟨scripts.map Script.plugin⟩)
    (hr : g.returns = .scripted ends) (function : Signature) :
    (g.implementation function).run.Follows (stubTurns scripts ends g.context.indent function) := by
  have hplugins (hook : Hook) :
      (Emission.ofFragments (g.plugins.run hook function)).run.Follows
        (scripts.map (Script.turn hook function)) := by
    rw [hp]
    exact Emission.follows_ofFragments (Chain.follows_run scripts hook function)
  have hend : (g.returns.render function g.context.indent).Follows
      [⟨.returns function.name g.context.indent, faultOf (ends function g.context.indent)⟩] := by
    rw [hr]
    exact Run.follows_ask _ _
  rw [implementation, stubTurns, List.append_assoc]
  apply Emission.follows_if_emit
  apply Emission.follows_emit_bind
  apply Emission.follows_bind (hplugins .stubStart)
  intro _
  apply Emission.follows_bind (hplugins .stub)
  intro _
  apply Emission.follows_bind_emit
  exact hend

theorem follows_verifyFunction (hp : g.plugins = ⟨scripts.map Script.plugin⟩)
    (functions : List Signature) :
    (g.verifyFunction functions).run.Follows (turns scripts .verify functions) := by
  rw [verifyFunction]
  apply Emission.follows_emit_bind
  apply Emission.follows_bind_emit
  exact follows_contributions hp .verify functions

theorem follows_destroyFunction (hp : g.plugins = ⟨scripts.map Script.plugin⟩)
    (functions : List Signature) :
    (g.destroyFunction functions).run.Follows (turns scripts .destroy functions) := by
  rw [destroyFunction]
  apply Emission.follows_emit_bind
  apply Emission.follows_bind_emit
  exact follows_contributions hp .destroy functions

theorem follows_source (hp : g.plugins = ⟨scripts.map Script.plugin⟩)
    (hr : g.returns = .scripted ends) (functions : List Signature) :
    (g.source functions).run.Follows
      (scripts.map Script.includesTurn ++ turns scripts .instanceStructure functions ++
        functions.flatMap (stubTurns scripts ends g.context.indent) ++
        turns scripts .verify functions ++ turns scripts .destroy functions) := by
  simp only [List.append_assoc]
  rw [source]
  apply Emission.follows_bind (follows_sourcePreamble hp _)
  intro _
  apply Emission.follows_bind (follows_instanceStructure hp functions)
  intro _
  apply Emission.follows_emit_bind
  apply Emission.follows_bind (Emission.follows_forEach (follows_implementation hp hr) functions)
  intro _
  apply Emission.follows_bind (follows_verifyFunction hp functions)
  intro _
  apply Emission.follows_emit_bind
  exact follows_destroyFunction hp functions

theorem follows_generate (hp : g.plugins = ⟨scripts.map Script.plugin⟩)
    (hr : g.returns = .scripted ends) (functions : List Signature) :
    (g.generate functions).Follows
      (turns scripts .declarations functions ++ scripts.map Script.includesTurn ++
        turns scripts .instanceStructure functions ++
        functions.flatMap (stubTurns scripts ends g.context.indent) ++
        turns scripts .verify functions ++ turns scripts .destroy functions) := by
  have hheader := (follows_header hp functions).map fun _ =>
    (⟨(g.header functions).fragments⟩ : Output)
  have hsource := (follows_source hp hr functions).map fun _ =>
    (⟨(g.source functions).fragments⟩ : Output)
  simp only [List.append_assoc] at hsource ⊢
  rw [generate, ← List.nil_append (turns _ _ _ ++ _)]
  refine (Run.follows_nil rfl rfl).bind fun _ _ => ?_
  refine hheader.bind fun header _ => ?_
  rw [← List.append_nil (List.map _ _ ++ _)]
  refine hsource.bind fun source _ => ?_
  exact Run.follows_nil rfl rfl

/-- Whatever the source of the settings, the plugins and the handler of return values answer, a
generation calls them in the order of the schedule, each call once, up to the first that fails. It
fails with the fault of that call, and only then. -/
theorem generation_follows_schedule (answers : Setting → Except Fault String)
    (scripts : List Script) (ends : Signature → String → Except Fault String)
    (module : ModuleName) (functions : List Signature) :
    (do
      let context ← Context.resolve (.scripted answers) module
      let g : Generator :=
        ⟨context, ⟨scripts.map Script.plugin⟩, .scripted ends⟩
      g.generate functions : Run Fault Mock).Follows
        (schedule answers scripts ends functions) := by
  simp only [schedule, List.append_assoc]
  refine (Context.follows_resolve answers module).bind fun context hc => ?_
  obtain ⟨hindent, -⟩ := Context.resolve_eq_ok hc
  rw [show answers .indent = .ok context.indent from hindent]
  have hg := follows_generate (g := ⟨context, ⟨scripts.map Script.plugin⟩, .scripted ends⟩)
    rfl rfl functions
  simp only [List.append_assoc] at hg
  exact hg

end Generator

end MockForge

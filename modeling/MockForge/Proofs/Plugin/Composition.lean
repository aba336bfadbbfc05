import MockForge.Generator

/-!
# Chains in a row, and silent plugins

A chain that holds the plugins of one chain and then those of another runs as the one and then the
other. A plugin that contributes nothing may stand anywhere in a chain: no mock tells that it is
there.
-/

namespace MockForge

/-- A plugin that refuses every function. -/
def Plugin.refusing (name : String) : Plugin :=
  .scripted name (.ok []) fun _ function =>
    .error (.argument ("unsupported type " ++ function.returnType))

/-! ## One run after another -/

/-- A run that goes through a first and a second run: it is the first one if that fails, and else
it ends as the second one does, with what both give joined. -/
structure InTurn {α : Type} (join : α → α → α) (first second whole : Run Fault α) : Prop where
  of_error : ∀ fault, first.outcome = .error fault → whole = first
  of_ok_error : ∀ a fault, first.outcome = .ok a → second.outcome = .error fault →
    whole = ⟨first.events ++ second.events, .error fault⟩
  of_ok : ∀ a b, first.outcome = .ok a → second.outcome = .ok b →
    whole = ⟨first.events ++ second.events, .ok (join a b)⟩

theorem inTurn_bind {α : Type} (join : α → α → α) (first second : Run Fault α) :
    InTurn join first second (do
      let a ← first
      let b ← second
      return join a b) where
  of_error fault h := by
    rw [Run.bind_of_error h, ← h]
  of_ok_error a fault h h' := by
    rw [Run.bind_of_ok h, Run.bind_of_error h']
  of_ok a b h h' := by
    rw [Run.bind_of_ok h, Run.bind_of_ok h']
    simp

namespace Chain

/-! ## Two chains in a row -/

/-- Asking the plugins of two lists is asking those of the first and then those of the second. -/
theorem collect_append (hook : String) (ask : Plugin → Run Fault (List String))
    (ps qs : List Plugin) :
    collect hook ask (ps ++ qs) = do
      let own ← collect hook ask ps
      let others ← collect hook ask qs
      return own ++ others := by
  induction ps with
  | nil => simp [collect]
  | cons p ps ih =>
      simp only [List.cons_append, collect, ih, bind_assoc, pure_bind, List.append_assoc]

theorem run_append (ps qs : List Plugin) (hook : Hook) (function : Signature) :
    run ⟨ps ++ qs⟩ hook function = do
      let own ← run ⟨ps⟩ hook function
      let others ← run ⟨qs⟩ hook function
      return own ++ others :=
  collect_append _ _ ps qs

theorem includes_append (ps qs : List Plugin) :
    includes ⟨ps ++ qs⟩ = do
      let own ← includes ⟨ps⟩
      let others ← includes ⟨qs⟩
      return own ++ others := by
  simp only [includes, collect_append, map_eq_pure_bind, bind_assoc, pure_bind,
    String.join_append]

/-! ## Silent plugins -/

/-- The second list is the first one with silent plugins put in, any number of them and anywhere. -/
inductive Woven : List Plugin → List Plugin → Prop where
  | nil : Woven [] []
  | keep {ps qs} (plugin) : Woven ps qs → Woven (plugin :: ps) (plugin :: qs)
  | insert {ps qs} (name) : Woven ps qs → Woven ps (.silent name :: qs)

variable {ps qs : List Plugin}

/-- A plugin that gives nothing when asked changes nothing of what a chain gives. -/
theorem Woven.collect_eq (h : Woven ps qs) (hook : String)
    {ask : Plugin → Run Fault (List String)} (hask : ∀ name, ask (.silent name) = pure []) :
    collect hook ask qs = collect hook ask ps := by
  induction h with
  | nil => rfl
  | keep plugin _ ih => rw [collect, collect, ih]
  | @insert _ qs name _ ih =>
      have hsilent : (ask (.silent name)).recover ((Plugin.silent name).blame hook) = pure [] := by
        rw [hask]
        rfl
      rw [collect, hsilent, pure_bind, ← ih]
      exact bind_pure (collect hook ask qs)

theorem Woven.run_eq (h : Woven ps qs) (hook : Hook) (function : Signature) :
    run ⟨qs⟩ hook function = run ⟨ps⟩ hook function :=
  h.collect_eq _ fun _ => rfl

theorem Woven.includes_eq (h : Woven ps qs) : includes ⟨qs⟩ = includes ⟨ps⟩ :=
  congrArg (String.join <$> ·) (h.collect_eq _ fun _ => rfl)

end Chain

/-! ## The generator -/

namespace Generator

/-- Nothing of a chain counts for a mock but what it gives for its includes and to each hook. -/
theorem generate_congr (g : Generator) {plugins : Chain}
    (hi : plugins.includes = g.plugins.includes)
    (hr : ∀ hook function, plugins.run hook function = g.plugins.run hook function)
    (functions : List Signature) :
    ({ g with plugins } : Generator).generate functions = g.generate functions := by
  have hcontributions (hook : Hook) :
      ({ g with plugins } : Generator).contributions hook functions =
        g.contributions hook functions := by
    simp only [contributions, hr]
  have himplementation :
      ({ g with plugins } : Generator).implementation = g.implementation := by
    funext function
    simp only [implementation, hr]
  have hheader : ({ g with plugins } : Generator).header functions = g.header functions := by
    simp only [header, headerPreamble, functionDeclarations, hcontributions]
  have hsource : ({ g with plugins } : Generator).source functions = g.source functions := by
    simp only [source, sourcePreamble, instanceStructure, verifyFunction, initFunction,
      destroyFunction, hcontributions, himplementation, hi]
  simp only [generate, hheader, hsource]

/-- A chain of two lists of plugins runs as the first and then the second, for every hook and for
includes: where the first fails, no plugin of the second is asked. And whatever the plugins and the
handler of return values do, silent plugins that are put into a chain leave every generation as it
is, its mock or its fault and all that happens on the way. -/
theorem plugins_in_turn :
    (∀ (ps qs : List Plugin) (hook : Hook) (function : Signature),
      InTurn (· ++ ·) (Chain.run ⟨ps⟩ hook function) (Chain.run ⟨qs⟩ hook function)
        (Chain.run ⟨ps ++ qs⟩ hook function)) ∧
    (∀ ps qs : List Plugin,
      InTurn (· ++ ·) (Chain.includes ⟨ps⟩) (Chain.includes ⟨qs⟩) (Chain.includes ⟨ps ++ qs⟩)) ∧
    ∀ (g : Generator) (woven : List Plugin), Chain.Woven g.plugins.plugins woven →
      ∀ functions : List Signature,
        ({ g with plugins := ⟨woven⟩ } : Generator).generate functions = g.generate functions := by
  refine ⟨fun ps qs hook function => ?_, fun ps qs => ?_, fun g woven h functions => ?_⟩
  · rw [Chain.run_append]
    exact inTurn_bind _ _ _
  · rw [Chain.includes_append]
    exact inTurn_bind _ _ _
  · exact g.generate_congr h.includes_eq h.run_eq functions

/-- What makes mocks of `uart` with one plugin, which refuses them. -/
def refusingGenerator : Generator where
  context := ⟨⟨"uart"⟩, ⟨"Mockuart"⟩, "  ", "Mock", "", "unity.h"⟩
  plugins := ⟨[.refusing "types"]⟩

theorem silent_around_refusing :
    Chain.Woven [.refusing "types"] [.silent "first", .refusing "types", .silent "last"] ∧
    ({ refusingGenerator with
        plugins := ⟨[.silent "first", .refusing "types", .silent "last"]⟩ } : Generator).generate
      [{ name := "uart_read", returnType := "va_list" }] =
        refusingGenerator.generate [{ name := "uart_read", returnType := "va_list" }] :=
  have hwoven : Chain.Woven [.refusing "types"]
      [.silent "first", .refusing "types", .silent "last"] :=
    .insert "first" (.keep _ (.insert "last" .nil))
  ⟨hwoven, plugins_in_turn.2.2 refusingGenerator _ hwoven _⟩

end Generator

end MockForge

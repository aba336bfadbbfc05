import MockForge.Generator

/-!
# Steps only append

A step of a generation is a row of portions: parts of the frame, and what collaborators give. It
appends them one after another to the output that it gets, up to the first collaborator that fails,
of which it appends nothing. Had those that fail kept silent instead, it would have gone on from
there.
-/

namespace MockForge

/-! ## Collaborators that never fail -/

namespace Run

variable {ε α : Type} {run : Run ε α} {a : α}

/-- The run, with a value in place of a failure. -/
def orGive (run : Run ε α) (a : α) : Run ε α := run.recover fun _ => pure a

theorem orGive_of_ok (h : run.outcome = .ok a) (b : α) : run.orGive b = run := by
  rw [orGive, recover, h]

theorem outcome_orGive_of_error {fault : ε} (h : run.outcome = .error fault) (b : α) :
    (run.orGive b).outcome = .ok b := by
  rw [orGive, recover, h]
  rfl

end Run

/-- The plugin, contributing nothing wherever it fails. -/
def Plugin.forgiving (plugin : Plugin) : Plugin where
  name := plugin.name
  includes := plugin.includes.orGive []
  contribution hook function := (plugin.contribution hook function).orGive []

/-- The handler, giving an empty end wherever it fails. -/
def ReturnHandler.forgiving (returns : ReturnHandler) : ReturnHandler where
  render function indent := (returns.render function indent).orGive ""

/-- The run gives the same without fail, and something even where it failed. -/
def Forgives {α : Type} (run full : Run Fault α) : Prop :=
  (∀ a, run.outcome = .ok a → full.outcome = .ok a) ∧ ∃ a, full.outcome = .ok a

namespace Forgives

variable {α β : Type}

theorem pure (a : α) : Forgives (pure a : Run Fault α) (pure a) := ⟨fun _ h => h, a, rfl⟩

theorem orGive (run : Run Fault α) (a : α) : Forgives run (run.orGive a) := by
  cases ho : run.outcome with
  | ok b =>
      rw [Run.orGive_of_ok ho]
      exact ⟨fun _ h => h, b, ho⟩
  | error fault =>
      refine ⟨fun _ h => ?_, a, Run.outcome_orGive_of_error ho a⟩
      rw [ho] at h
      cases h

theorem bind {run full : Run Fault α} {next fullNext : α → Run Fault β} (h : Forgives run full)
    (hn : ∀ a, Forgives (next a) (fullNext a)) :
    Forgives (run >>= next) (full >>= fullNext) := by
  refine ⟨fun b hb => ?_, ?_⟩
  · obtain ⟨a, ha, hb⟩ := Run.outcome_bind_eq_ok hb
    rw [Run.bind_of_ok (h.1 a ha)]
    exact (hn a).1 b hb
  · obtain ⟨a, ha⟩ := h.2
    obtain ⟨b, hb⟩ := (hn a).2
    exact ⟨b, by rw [Run.bind_of_ok ha, hb]⟩

theorem map {run full : Run Fault α} (h : Forgives run full) (f : α → β) :
    Forgives (f <$> run) (f <$> full) := by
  rw [map_eq_pure_bind, map_eq_pure_bind]
  exact h.bind fun a => .pure (f a)

/-- A run that never fails has nothing to recover from. -/
theorem recover {run full : Run Fault α} (h : Forgives run full)
    (handle handle' : Fault → Run Fault α)
    (hh : ∀ fault, ∃ final, (handle fault).outcome = .error final) :
    Forgives (run.recover handle) (full.recover handle') := by
  obtain ⟨a, ha⟩ := h.2
  have hfull : full.recover handle' = full := by rw [Run.recover, ha]
  refine ⟨fun b hb => ?_, a, by rw [hfull, ha]⟩
  cases ho : run.outcome with
  | ok b' =>
      have hrun : run.recover handle = run := by rw [Run.recover, ho]
      rw [hrun] at hb
      rw [hfull, h.1 b hb]
  | error fault =>
      obtain ⟨final, hfinal⟩ := hh fault
      rw [Run.recover, ho] at hb
      simp [hfinal] at hb

end Forgives

namespace Chain

theorem outcome_blame (plugin : Plugin) (hook : String) (fault : Fault) :
    ∃ final, (plugin.blame hook fault).outcome = .error final := by
  cases hp : fault.isPlugin with
  | true => exact ⟨fault, by simp [Plugin.blame, hp, Run.fail, Run.ofOutcome]⟩
  | false => exact ⟨_, by rw [Plugin.blame, hp]; rfl⟩

theorem collect_forgives (hook : String) {ask : Plugin → Run Fault (List String)}
    (hask : ∀ plugin : Plugin, ask plugin.forgiving = (ask plugin).orGive [])
    (plugins : List Plugin) :
    Forgives (collect hook ask plugins) (collect hook ask (plugins.map Plugin.forgiving)) := by
  induction plugins with
  | nil => exact .pure []
  | cons plugin rest ih =>
      have hown : Forgives ((ask plugin).recover (plugin.blame hook))
          ((ask plugin.forgiving).recover (plugin.forgiving.blame hook)) := by
        rw [hask]
        exact (Forgives.orGive (ask plugin) []).recover _ _ (outcome_blame plugin hook)
      exact hown.bind fun own => ih.bind fun others => .pure (own ++ others)

end Chain

/-! ## Steps and their portions -/

/-- A step of a generation. -/
inductive Step where
  | headerPreamble (file : String)
  | functionDeclarations (functions : List Signature)
  | headerEpilogue
  | sourcePreamble (file : String)
  | instanceStructure (functions : List Signature)
  | externDeclarations
  | verifyFunction (functions : List Signature)
  | initFunction
  | destroyFunction (functions : List Signature)
  | implementation (function : Signature)

/-- A portion of a step: a part of the frame, or what a collaborator gives. -/
inductive Portion where
  | frame (fragments : List String)
  | includes
  | contribution (hook : Hook) (function : Signature)
  | ending (function : Signature)

namespace Generator

/-- Performs a step. -/
def perform (g : Generator) : Step → Emission Fault Unit
  | .headerPreamble file => g.headerPreamble file
  | .functionDeclarations functions => g.functionDeclarations functions
  | .headerEpilogue => headerEpilogue
  | .sourcePreamble file => g.sourcePreamble file
  | .instanceStructure functions => g.instanceStructure functions
  | .externDeclarations => externDeclarations
  | .verifyFunction functions => g.verifyFunction functions
  | .initFunction => g.initFunction
  | .destroyFunction functions => g.destroyFunction functions
  | .implementation function => g.implementation function

/-- What a portion gives. -/
def given (g : Generator) : Portion → Run Fault (List String)
  | .frame fragments => pure fragments
  | .includes => ([·]) <$> g.plugins.includes
  | .contribution hook function => g.plugins.run hook function
  | .ending function => ([·]) <$> g.returns.render function g.context.indent

/-- The portions of a step, in order. -/
def portions (g : Generator) : Step → List Portion
  | .headerPreamble file => [.frame (g.headerPreamble file).fragments]
  | .functionDeclarations functions => functions.map (.contribution .declarations)
  | .headerEpilogue => [.frame ["\n#endif\n"]]
  | .sourcePreamble file =>
      [.frame
        [banner, "#include <string.h>\n", "#include <stdlib.h>\n", "#include <setjmp.h>\n",
         includeLine g.context.frameworkHeader],
       .includes,
       .frame [includeLine (companionHeader file) ++ "\n"]]
  | .instanceStructure functions =>
      .frame
        (["static struct " ++ g.context.mock.text ++ "Instance\n", bodyStart]
          ++ (if functions.isEmpty then [g.context.indent ++ "unsigned char placeHolder;\n"]
              else [])
          ++ [g.context.indent ++ "unsigned char allocFailure;\n"]) ::
        (functions.map (.contribution .instanceStructure) ++ [.frame [instanceEnd]])
  | .externDeclarations => [.frame externDeclarations.fragments]
  | .verifyFunction functions =>
      .frame
        ["void " ++ g.context.mock.text ++ "_Verify(void)\n" ++ bodyStart,
         g.context.indent ++ "TEST_ASSERT_EQUAL(0, Mock.allocFailure);\n"] ::
        (functions.map (.contribution .verify) ++ [.frame [bodyEnd]])
  | .initFunction => [.frame g.initFunction.fragments]
  | .destroyFunction functions =>
      .frame ["void " ++ g.context.mock.text ++ "_Destroy(void)\n" ++ bodyStart] ::
        (functions.map (.contribution .destroy)
          ++ [.frame [g.context.indent ++ "memset(&Mock, 0, sizeof(Mock));\n", bodyEnd]])
  | .implementation function =>
      [.frame
        ((if word function.attributes ≠ "" then [word function.attributes] else [])
          ++ [word function.modifier ++ function.returnType ++ " " ++ function.name ++ "("
                ++ function.parameterText ++ ")\n", bodyStart]),
       .contribution .stubStart function,
       .contribution .stub function,
       .ending function,
       .frame [bodyEnd]]

/-- The generator, with collaborators that give nothing wherever they fail. -/
def forgiving (g : Generator) : Generator where
  context := g.context
  plugins := ⟨g.plugins.plugins.map Plugin.forgiving⟩
  returns := g.returns.forgiving

theorem portions_forgiving (g : Generator) (step : Step) :
    g.forgiving.portions step = g.portions step := by
  cases step <;> rfl

theorem given_forgives (g : Generator) (portion : Portion) :
    Forgives (g.given portion) (g.forgiving.given portion) := by
  cases portion with
  | frame fragments => exact .pure fragments
  | includes => exact ((Chain.collect_forgives _ (fun _ => rfl) _).map _).map _
  | contribution hook function => exact Chain.collect_forgives _ (fun _ => rfl) _
  | ending function => exact (Forgives.orGive _ "").map _

end Generator

/-! ## A step as a row of portions -/

namespace Emission

variable {ε ι κ : Type}

theorem ofRun_map {α β : Type} (f : α → β) (run : Run ε α) :
    ofRun (f <$> run) = f <$> ofRun run := by
  rcases run with ⟨events, fault | a⟩ <;> rfl

theorem ofFragments_map {α : Type} (f : α → List String) (run : Run ε α) :
    ofFragments (f <$> run) = ofRun run >>= fun a => emit (f a) := by
  rw [ofFragments, ofRun_map, bind_map_left]

theorem forEach_append (step : ι → Emission ε Unit) (first second : List ι) :
    forEach step (first ++ second) = forEach step first >>= fun _ => forEach step second := by
  induction first with
  | nil => exact (pure_bind () fun _ => forEach step second).symm
  | cons item rest ih => rw [List.cons_append, forEach, forEach, ih, bind_assoc]

theorem forEach_map (step : κ → Emission ε Unit) (f : ι → κ) (items : List ι) :
    forEach step (items.map f) = forEach (fun item => step (f item)) items := by
  induction items with
  | nil => rfl
  | cons item rest ih => rw [List.map_cons, forEach, forEach, ih]

theorem forEach_singleton (step : ι → Emission ε Unit) (item : ι) :
    forEach step [item] = step item :=
  bind_pure (step item)

end Emission

namespace Generator

/-- Performs a portion. -/
def write (g : Generator) (portion : Portion) : Emission Fault Unit :=
  Emission.ofFragments (g.given portion)

theorem write_includes (g : Generator) :
    g.write .includes = Emission.ofRun g.plugins.includes >>= fun text => Emission.emit [text] :=
  Emission.ofFragments_map _ _

theorem write_ending (g : Generator) (function : Signature) :
    g.write (.ending function) =
      Emission.ofRun (g.returns.render function g.context.indent) >>= fun text =>
        Emission.emit [text] :=
  Emission.ofFragments_map _ _

theorem forEach_write_contributions (g : Generator) (hook : Hook) (functions : List Signature) :
    Emission.forEach g.write (functions.map (.contribution hook)) =
      g.contributions hook functions := by
  rw [Emission.forEach_map]
  rfl

/-- What plugins contribute, with a part of the frame before and after it. -/
theorem forEach_write_framed (g : Generator) (hook : Hook) (functions : List Signature)
    (first last : List String) :
    Emission.forEach g.write
        (.frame first :: (functions.map (.contribution hook) ++ [.frame last])) =
      (do
        Emission.emit first
        g.contributions hook functions
        Emission.emit last) := by
  rw [Emission.forEach, Emission.forEach_append, Emission.forEach_singleton,
    forEach_write_contributions]
  rfl

/-- A step performs its portions one after another. -/
theorem perform_eq (g : Generator) (step : Step) :
    g.perform step = Emission.forEach g.write (g.portions step) := by
  cases step with
  | headerPreamble file => rfl
  | functionDeclarations functions =>
      exact (g.forEach_write_contributions .declarations functions).symm
  | headerEpilogue => rfl
  | sourcePreamble file =>
      simp only [portions, Emission.forEach, write_includes, bind_assoc]
      rfl
  | instanceStructure functions =>
      rw [portions, forEach_write_framed, perform, instanceStructure]
      cases functions <;> rfl
  | externDeclarations => rfl
  | verifyFunction functions => exact (g.forEach_write_framed .verify functions _ _).symm
  | initFunction => rfl
  | destroyFunction functions => exact (g.forEach_write_framed .destroy functions _ _).symm
  | implementation function =>
      simp only [portions, Emission.forEach, write_ending, bind_assoc, perform, implementation]
      split <;> rfl

/-! ## What a row of portions appends -/

/-- Appends portions to an output one after another, up to the first whose collaborator fails. -/
def appendAll (g : Generator) (output : Output) : List Portion → Output × Except Fault Unit
  | [] => (output, .ok ())
  | portion :: rest =>
      match (g.given portion).outcome with
      | .error fault => (output, .error fault)
      | .ok fragments => g.appendAll (output.extend fragments) rest

/-- The fragments of a portion, none where its collaborator fails. -/
def fragmentsOf (g : Generator) (portion : Portion) : List String :=
  (g.given portion).outcome.toOption.getD []

variable {g : Generator} {portion : Portion}

theorem write_of_ok {fragments : List String} (h : (g.given portion).outcome = .ok fragments) :
    (g.write portion).fragments = fragments ∧ (g.write portion).run.outcome = .ok () := by
  refine ⟨Emission.fragments_bind_of_ok h _, ?_⟩
  rw [write, Emission.ofFragments, Emission.run_bind]
  exact congrArg Run.outcome (Run.bind_of_ok h _)

theorem write_of_error {fault : Fault} (h : (g.given portion).outcome = .error fault) :
    (g.write portion).fragments = [] ∧ (g.write portion).run.outcome = .error fault := by
  refine ⟨Emission.fragments_bind_of_error h _, ?_⟩
  rw [write, Emission.ofFragments, Emission.run_bind]
  exact congrArg Run.outcome (Run.bind_of_error h _)

theorem forEach_write_of_ok {fragments : List String}
    (h : (g.given portion).outcome = .ok fragments) (rest : List Portion) :
    (Emission.forEach g.write (portion :: rest)).fragments =
        fragments ++ (Emission.forEach g.write rest).fragments ∧
      (Emission.forEach g.write (portion :: rest)).run.outcome =
        (Emission.forEach g.write rest).run.outcome := by
  obtain ⟨hfragments, houtcome⟩ := write_of_ok h
  refine ⟨?_, ?_⟩
  · rw [Emission.forEach, Emission.fragments_bind_of_ok houtcome, hfragments]
  · rw [Emission.forEach, Emission.run_bind, Run.bind_of_ok houtcome]

theorem forEach_write_of_error {fault : Fault} (h : (g.given portion).outcome = .error fault)
    (rest : List Portion) :
    (Emission.forEach g.write (portion :: rest)).fragments = [] ∧
      (Emission.forEach g.write (portion :: rest)).run.outcome = .error fault := by
  obtain ⟨hfragments, houtcome⟩ := write_of_error h
  refine ⟨?_, ?_⟩
  · rw [Emission.forEach, Emission.fragments_bind_of_error houtcome, hfragments]
  · rw [Emission.forEach, Emission.run_bind, Run.bind_of_error houtcome]

/-- The fragments that a row of portions appends to an output, and how it ends. -/
theorem appendAll_eq (g : Generator) (portions : List Portion) (output : Output) :
    g.appendAll output portions =
      ((Emission.forEach g.write portions).onto output,
        (Emission.forEach g.write portions).run.outcome) := by
  induction portions generalizing output with
  | nil =>
      have hnil : (Emission.forEach g.write []).onto output = output :=
        congrArg Output.mk (List.append_nil output.fragments)
      rw [hnil]
      rfl
  | cons portion rest ih =>
      cases hgiven : (g.given portion).outcome with
      | error fault =>
          obtain ⟨hfragments, houtcome⟩ := forEach_write_of_error hgiven rest
          simp [appendAll, hgiven, Emission.onto, Output.extend, hfragments, houtcome]
      | ok fragments =>
          obtain ⟨hfragments, houtcome⟩ := forEach_write_of_ok hgiven rest
          simp [appendAll, hgiven, ih, Emission.onto, Output.extend, hfragments, houtcome]

/-- Either no collaborator of a row of portions fails, and all their fragments are written, or one
is the first to fail, and those of the portions before it are. -/
theorem forEach_write_cases (g : Generator) (portions : List Portion) :
    ((∀ portion ∈ portions, (g.given portion).outcome.isOk) ∧
      (Emission.forEach g.write portions).fragments = portions.flatMap g.fragmentsOf ∧
      (Emission.forEach g.write portions).run.outcome = .ok ()) ∨
    ∃ before failed after fault, portions = before ++ failed :: after ∧
      (∀ portion ∈ before, (g.given portion).outcome.isOk) ∧
      (g.given failed).outcome = .error fault ∧
      (Emission.forEach g.write portions).fragments = before.flatMap g.fragmentsOf ∧
      (Emission.forEach g.write portions).run.outcome = .error fault := by
  induction portions with
  | nil => exact .inl ⟨by simp, rfl, rfl⟩
  | cons portion rest ih =>
      cases hgiven : (g.given portion).outcome with
      | error fault =>
          have hwritten := forEach_write_of_error hgiven rest
          exact .inr ⟨[], portion, rest, fault, rfl, by simp, hgiven, hwritten⟩
      | ok fragments =>
          obtain ⟨hfragments, houtcome⟩ := forEach_write_of_ok hgiven rest
          have hok : (g.given portion).outcome.isOk := by rw [hgiven]; rfl
          have hown : g.fragmentsOf portion = fragments := by rw [fragmentsOf, hgiven]; rfl
          rcases ih with ⟨hall, hf, ho⟩ | ⟨before, failed, after, fault, rfl, hall, hfailed, hf, ho⟩
          · refine .inl ⟨List.forall_mem_cons.2 ⟨hok, hall⟩, ?_, houtcome.trans ho⟩
            rw [hfragments, hf, List.flatMap_cons, hown]
          · refine .inr ⟨portion :: before, failed, after, fault, rfl,
              List.forall_mem_cons.2 ⟨hok, hall⟩, hfailed, ?_, houtcome.trans ho⟩
            rw [hfragments, hf, List.flatMap_cons, hown]

/-- Collaborators that fail nowhere write every portion, and those that were written before as they
were. -/
theorem forEach_write_forgiving (g : Generator) (portions : List Portion) :
    (Emission.forEach g.forgiving.write portions).fragments =
        portions.flatMap g.forgiving.fragmentsOf ∧
      (Emission.forEach g.forgiving.write portions).run.outcome = .ok () := by
  rcases g.forgiving.forEach_write_cases portions with
    ⟨-, hf, ho⟩ | ⟨before, failed, after, fault, -, -, hfailed, -⟩
  · exact ⟨hf, ho⟩
  · obtain ⟨fragments, hok⟩ := (g.given_forgives failed).2
    rw [hfailed] at hok
    cases hok

theorem fragmentsOf_forgiving (h : (g.given portion).outcome.isOk) :
    g.forgiving.fragmentsOf portion = g.fragmentsOf portion := by
  cases hgiven : (g.given portion).outcome with
  | error fault => simp [hgiven, Except.isOk, Except.toBool] at h
  | ok fragments => rw [fragmentsOf, fragmentsOf, hgiven, (g.given_forgives portion).1 _ hgiven]

/-- A step leaves the fragments of the output that it gets and appends others, which do not depend
on them: it appends its portions one after another. Where it fails, one portion is the first whose
collaborator does, with the fault of the step, and exactly what the portions before it gave is
appended. That is where the step begins that has collaborators that keep silent instead of failing:
it fails nowhere. -/
theorem steps_only_append (g : Generator) (step : Step) :
    (∀ output, g.appendAll output (g.portions step) =
      ((g.perform step).onto output, (g.perform step).run.outcome)) ∧
    ∃ added whole : List String,
      (∀ output, ((g.perform step).onto output).fragments = output.fragments ++ added) ∧
      (∀ output, ((g.forgiving.perform step).onto output).fragments =
        output.fragments ++ whole) ∧
      (g.forgiving.perform step).run.outcome = .ok () ∧
      ((g.perform step).run.outcome = .ok () → added = whole) ∧
      ∀ fault, (g.perform step).run.outcome = .error fault →
        added <+: whole ∧
        ∃ before failed after, g.portions step = before ++ failed :: after ∧
          (∀ portion ∈ before, (g.given portion).outcome.isOk) ∧
          (g.given failed).outcome = .error fault ∧
          added = before.flatMap g.fragmentsOf := by
  obtain ⟨hwhole, hsucceeds⟩ := g.forEach_write_forgiving (g.portions step)
  have hsame {portions : List Portion}
      (h : ∀ portion ∈ portions, (g.given portion).outcome.isOk) :
      portions.flatMap g.forgiving.fragmentsOf = portions.flatMap g.fragmentsOf := by
    rw [List.flatMap_def, List.flatMap_def,
      List.map_congr_left fun portion hp => fragmentsOf_forgiving (h portion hp)]
  simp only [perform_eq, portions_forgiving]
  refine ⟨fun output => g.appendAll_eq _ output, _, _, fun output => rfl, fun output => rfl,
    hsucceeds, ?_⟩
  rcases g.forEach_write_cases (g.portions step) with
    ⟨hall, hf, ho⟩ | ⟨before, failed, after, fault, hsplit, hall, hfailed, hf, ho⟩
  · refine ⟨fun _ => ?_, fun fault hfault => ?_⟩
    · rw [hwhole, hf, hsame hall]
    · rw [ho] at hfault
      cases hfault
  · refine ⟨fun hok => ?_, fun fault' hfault => ?_⟩
    · rw [ho] at hok
      cases hok
    · rw [ho] at hfault
      cases hfault
      refine ⟨?_, before, failed, after, hsplit, hall, hfailed, hf⟩
      rw [hwhole, hf, hsplit, List.flatMap_append, hsame hall]
      exact List.prefix_append _ _

end Generator

end MockForge

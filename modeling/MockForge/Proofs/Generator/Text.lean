import MockForge.Generator

/-!
# The text of a mock

Where no collaborator fails, a mock is two files whose texts are written down here as a whole, from
what the collaborators give.
-/

namespace MockForge

variable {α β : Type}

/-! ## Texts -/

namespace MockText

/-- The text that a run gives in fragments. -/
def given (run : Run Fault (List String)) : String := String.join (run.outcome.toOption.getD [])

/-- What plugins give for their includes. -/
def includes (plugins : List Plugin) : String :=
  String.join (plugins.map fun plugin => given plugin.includes)

/-- What plugins give to a hook for a function. -/
def contribution (plugins : List Plugin) (hook : Hook) (function : Signature) : String :=
  String.join (plugins.map fun plugin => given (plugin.contribution hook function))

/-- What plugins give to a hook for each function. -/
def contributions (plugins : List Plugin) (hook : Hook) (functions : List Signature) : String :=
  String.join (functions.map (contribution plugins hook))

/-- A word that is there and not empty, and a blank. -/
def optional (word : Option String) : String :=
  ((word.filter (· ≠ "")).map (· ++ " ")).getD ""

/-- The stub of a function. -/
def stub (plugins : List Plugin) (returns : ReturnHandler) (indent : String)
    (function : Signature) : String :=
  String.join
    [optional function.attributes, optional function.modifier, function.returnType, " ",
      function.name, "(", function.parameterText, ")\n",
     bodyStart,
     contribution plugins .stubStart function,
     contribution plugins .stub function,
     (returns.render function indent).outcome.toOption.getD "",
     bodyEnd]

/-- The header of the mock `n`. -/
def header (n : String) (context : Context) (plugins : List Plugin) (functions : List Signature) :
    String :=
  String.join
    [banner,
     "#ifndef ", includeGuard (n ++ ".h"), "\n",
     "#define ", includeGuard (n ++ ".h"), "\n\n",
     context.includeBlock,
     includeLine (context.module.text ++ ".h"), "\n",
     "void ", n, "_Init(void);\n",
     "void ", n, "_Destroy(void);\n",
     "void ", n, "_Verify(void);\n\n",
     contributions plugins .declarations functions,
     "\n#endif\n"]

/-- The source of the mock `n`. -/
def source (n : String) (context : Context) (plugins : List Plugin) (returns : ReturnHandler)
    (functions : List Signature) : String :=
  String.join
    [banner,
     "#include <string.h>\n", "#include <stdlib.h>\n", "#include <setjmp.h>\n",
     includeLine context.frameworkHeader,
     includes plugins,
     includeLine (companionHeader (n ++ ".c")), "\n",
     "static struct ", n, "Instance\n",
     bodyStart,
     if functions = [] then context.indent ++ "unsigned char placeHolder;\n" else "",
     context.indent, "unsigned char allocFailure;\n",
     contributions plugins .instanceStructure functions,
     instanceEnd,
     "extern jmp_buf AbortFrame;\n", "extern int GlobalExpectOrder;\n",
     "extern int GlobalVerifyOrder;\n", "\n",
     String.join (functions.map (stub plugins returns context.indent)),
     "void ", n, "_Verify(void)\n", bodyStart,
     context.indent, "TEST_ASSERT_EQUAL(0, Mock.allocFailure);\n",
     contributions plugins .verify functions,
     bodyEnd,
     "void ", n, "_Init(void)\n", bodyStart,
     context.indent, n, "_Destroy();\n",
     bodyEnd,
     "void ", n, "_Destroy(void)\n", bodyStart,
     contributions plugins .destroy functions,
     context.indent, "memset(&Mock, 0, sizeof(Mock));\n",
     bodyEnd]

/-- The mock of a context: its name is the prefix and the name of the module. -/
def mock (context : Context) (plugins : List Plugin) (returns : ReturnHandler)
    (functions : List Signature) : Mock :=
  let n := context.symbolPrefix ++ context.module.text
  { name := ⟨n⟩
    files :=
      [⟨n ++ ".h", header n context plugins functions⟩,
       ⟨n ++ ".c", source n context plugins returns functions⟩] }

end MockText

/-! ## Steps that succeed -/

namespace Emission

/-- A step succeeds with a value and writes a text. -/
def Writes (step : Emission Fault α) (a : α) (text : String) : Prop :=
  step.run.outcome = .ok a ∧ String.join step.fragments = text

theorem Writes.bind {first : Emission Fault α} {next : α → Emission Fault β} {a : α} {b : β}
    {text more : String} (h : first.Writes a text) (hn : (next a).Writes b more) :
    (first >>= next).Writes b (text ++ more) := by
  obtain ⟨ho, rfl⟩ := h
  obtain ⟨hb, rfl⟩ := hn
  refine ⟨?_, ?_⟩
  · rw [run_bind, Run.bind_of_ok ho]
    exact hb
  · rw [fragments_bind_of_ok ho, String.join_append]

theorem writes_emit (fragments : List String) :
    (emit fragments : Emission Fault Unit).Writes () (String.join fragments) := ⟨rfl, rfl⟩

theorem Writes.of_eq {step : Emission Fault α} {a : α} {text other : String}
    (h : step.Writes a text) (he : text = other) : step.Writes a other := he ▸ h

theorem writes_if_emit {c : Prop} [Decidable c] {fragments : List String}
    {next : Unit → Emission Fault α} {a : α} {text : String} (h : (next ()).Writes a text) :
    (if c then emit fragments >>= next else next ()).Writes a
      ((if c then String.join fragments else "") ++ text) := by
  by_cases hc : c
  · rw [if_pos hc, if_pos hc]
    exact (writes_emit fragments).bind h
  · rw [if_neg hc, if_neg hc, String.empty_append]
    exact h

theorem writes_ofRun {run : Run Fault α} {a : α} (h : run.outcome = .ok a) :
    (ofRun run).Writes a "" := ⟨h, rfl⟩

theorem writes_ofFragments {run : Run Fault (List String)} {fragments : List String}
    (h : run.outcome = .ok fragments) :
    (ofFragments run).Writes () (String.join fragments) := by
  rw [← String.empty_append (s := String.join fragments)]
  exact (writes_ofRun h).bind (writes_emit fragments)

theorem writes_forEach {ι : Type} {step : ι → Emission Fault Unit} {text : ι → String}
    {items : List ι} (h : ∀ item ∈ items, (step item).Writes () (text item)) :
    (forEach step items).Writes () (String.join (items.map text)) := by
  induction items with
  | nil => exact ⟨rfl, rfl⟩
  | cons item rest ih =>
      obtain ⟨hitem, hrest⟩ := List.forall_mem_cons.1 h
      rw [List.map_cons, String.join_cons]
      exact hitem.bind (ih hrest)

/-- The output of a step that succeeds renders to what it writes. -/
theorem Writes.output {step : Emission Fault Unit} {text : String} (h : step.Writes () text) :
    ∃ out, step.output.outcome = .ok out ∧ out.render = text := by
  refine ⟨⟨step.fragments⟩, ?_, h.2⟩
  rw [Emission.output, map_eq_pure_bind, Run.bind_of_ok h.1]
  rfl

end Emission

/-! ## What plugins give -/

theorem outcome_of_isOk {ε : Type} {run : Run ε α} (h : run.outcome.isOk) (a : α) :
    run.outcome = .ok (run.outcome.toOption.getD a) := by
  cases ho : run.outcome with
  | error fault => simp [ho, Except.isOk, Except.toBool] at h
  | ok b => rfl

/-- Plugins that do not fail give their fragments one after another. -/
theorem Chain.collect_eq_ok (hook : String) {ask : Plugin → Run Fault (List String)}
    {plugins : List Plugin} (h : ∀ plugin ∈ plugins, (ask plugin).outcome.isOk) :
    ∃ fragments, (collect hook ask plugins).outcome = .ok fragments ∧
      String.join fragments =
        String.join (plugins.map fun plugin => MockText.given (ask plugin)) := by
  induction plugins with
  | nil => exact ⟨[], rfl, rfl⟩
  | cons plugin rest ih =>
      obtain ⟨hplugin, hrest⟩ := List.forall_mem_cons.1 h
      obtain ⟨others, ho, hj⟩ := ih hrest
      have hown := outcome_of_isOk hplugin []
      have hrecover : (ask plugin).recover (plugin.blame hook) = ask plugin := by
        rw [Run.recover, hown]
      refine ⟨(ask plugin).outcome.toOption.getD [] ++ others, ?_, ?_⟩
      · rw [collect, hrecover, Run.bind_of_ok hown]
        show (collect hook ask rest >>= _).outcome = _
        rw [Run.bind_of_ok ho]
        rfl
      · rw [String.join_append, hj, List.map_cons, String.join_cons]
        rfl

/-! ## Parts of a mock -/

namespace Generator

variable {g : Generator} {functions : List Signature}

/-- No plugin fails for a function. -/
def AllContribute (g : Generator) (function : Signature) : Prop :=
  ∀ plugin ∈ g.plugins.plugins, ∀ hook, (plugin.contribution hook function).outcome.isOk

theorem writes_run {function : Signature} (h : g.AllContribute function) (hook : Hook) :
    (Emission.ofFragments (g.plugins.run hook function)).Writes ()
      (MockText.contribution g.plugins.plugins hook function) := by
  obtain ⟨fragments, ho, hj⟩ := Chain.collect_eq_ok hook.name fun plugin hp => h plugin hp hook
  rw [MockText.contribution, ← hj]
  exact Emission.writes_ofFragments ho

theorem writes_contributions (h : ∀ function ∈ functions, g.AllContribute function) (hook : Hook) :
    (g.contributions hook functions).Writes ()
      (MockText.contributions g.plugins.plugins hook functions) :=
  Emission.writes_forEach fun function hf => writes_run (h function hf) hook

theorem word_eq (text : Option String) : word text = MockText.optional text := by
  cases text with
  | none => rfl
  | some text => by_cases ht : text = "" <;> simp [word, MockText.optional, Option.filter, ht]

theorem writes_implementation {function : Signature} (h : g.AllContribute function)
    (hr : (g.returns.render function g.context.indent).outcome.isOk) :
    (g.implementation function).Writes ()
      (MockText.stub g.plugins.plugins g.returns g.context.indent function) := by
  apply Emission.Writes.of_eq
  · rw [implementation]
    apply Emission.writes_if_emit
    apply (Emission.writes_emit _).bind
    apply (writes_run h .stubStart).bind
    apply (writes_run h .stub).bind
    apply (Emission.writes_ofRun (outcome_of_isOk hr "")).bind
    exact Emission.writes_emit _
  · have hattributes : (if word function.attributes ≠ "" then
        String.join [word function.attributes] else "") =
          MockText.optional function.attributes := by
      rw [word_eq]
      split <;> simp_all
    rw [hattributes]
    simp [MockText.stub, word_eq, String.append_assoc, -String.reduceAppend]

theorem writes_header (h : ∀ function ∈ functions, g.AllContribute function) :
    (g.header functions).Writes ()
      (MockText.header g.context.mock.text g.context g.plugins.plugins functions) := by
  apply Emission.Writes.of_eq
  · rw [header, functionDeclarations, headerPreamble]
    apply (Emission.writes_emit _).bind
    apply (writes_contributions h .declarations).bind
    exact Emission.writes_emit _
  · simp [MockText.header, MockName.headerFile, ModuleName.headerFile, String.append_assoc]

theorem writes_sourcePreamble
    (h : ∀ plugin ∈ g.plugins.plugins, plugin.includes.outcome.isOk) (file : String) :
    (g.sourcePreamble file).Writes ()
      (String.join
        [banner, "#include <string.h>\n", "#include <stdlib.h>\n", "#include <setjmp.h>\n",
         includeLine g.context.frameworkHeader,
         MockText.includes g.plugins.plugins,
         includeLine (companionHeader file), "\n"]) := by
  obtain ⟨fragments, ho, hj⟩ := Chain.collect_eq_ok Chain.includesName h
  have hincludes : g.plugins.includes.outcome = .ok (MockText.includes g.plugins.plugins) := by
    rw [Chain.includes, map_eq_pure_bind, Run.bind_of_ok ho, hj]
    rfl
  apply Emission.Writes.of_eq
  · rw [sourcePreamble]
    apply (Emission.writes_emit _).bind
    apply (Emission.writes_ofRun hincludes).bind
    exact Emission.writes_emit _
  · simp [String.append_assoc, -String.reduceAppend]

theorem writes_instanceStructure (h : ∀ function ∈ functions, g.AllContribute function) :
    (g.instanceStructure functions).Writes ()
      (String.join
        ["static struct ", g.context.mock.text, "Instance\n", bodyStart,
         if functions = [] then g.context.indent ++ "unsigned char placeHolder;\n" else "",
         g.context.indent, "unsigned char allocFailure;\n",
         MockText.contributions g.plugins.plugins .instanceStructure functions,
         instanceEnd]) := by
  apply Emission.Writes.of_eq
  · rw [instanceStructure]
    apply (Emission.writes_emit _).bind
    apply Emission.writes_if_emit
    apply (Emission.writes_emit _).bind
    apply (writes_contributions h .instanceStructure).bind
    exact Emission.writes_emit _
  · simp [String.append_assoc, -String.reduceAppend]

theorem writes_verifyFunction (h : ∀ function ∈ functions, g.AllContribute function) :
    (g.verifyFunction functions).Writes ()
      (String.join
        ["void ", g.context.mock.text, "_Verify(void)\n", bodyStart,
         g.context.indent, "TEST_ASSERT_EQUAL(0, Mock.allocFailure);\n",
         MockText.contributions g.plugins.plugins .verify functions,
         bodyEnd]) := by
  apply Emission.Writes.of_eq
  · rw [verifyFunction]
    apply (Emission.writes_emit _).bind
    apply (writes_contributions h .verify).bind
    exact Emission.writes_emit _
  · simp [String.append_assoc, -String.reduceAppend]

theorem writes_destroyFunction (h : ∀ function ∈ functions, g.AllContribute function) :
    (g.destroyFunction functions).Writes ()
      (String.join
        ["void ", g.context.mock.text, "_Destroy(void)\n", bodyStart,
         MockText.contributions g.plugins.plugins .destroy functions,
         g.context.indent, "memset(&Mock, 0, sizeof(Mock));\n",
         bodyEnd]) := by
  apply Emission.Writes.of_eq
  · rw [destroyFunction]
    apply (Emission.writes_emit _).bind
    apply (writes_contributions h .destroy).bind
    exact Emission.writes_emit _
  · simp [String.append_assoc, -String.reduceAppend]

theorem writes_source (hi : ∀ plugin ∈ g.plugins.plugins, plugin.includes.outcome.isOk)
    (hc : ∀ function ∈ functions, g.AllContribute function)
    (hr : ∀ function ∈ functions, (g.returns.render function g.context.indent).outcome.isOk) :
    (g.source functions).Writes ()
      (MockText.source g.context.mock.text g.context g.plugins.plugins g.returns functions) := by
  have hstubs := Emission.writes_forEach fun function hf =>
    writes_implementation (hc function hf) (hr function hf)
  apply Emission.Writes.of_eq
  · rw [source]
    apply (writes_sourcePreamble hi _).bind
    apply (writes_instanceStructure hc).bind
    apply (Emission.writes_emit _).bind
    apply hstubs.bind
    apply (writes_verifyFunction hc).bind
    apply (Emission.writes_emit _).bind
    exact writes_destroyFunction hc
  · simp [MockText.source, MockName.sourceFile, String.append_assoc, -String.reduceAppend]

/-! ## The whole mock -/

/-- Where both files are written, the mock holds them. -/
theorem outcome_generate {headerText sourceText : String}
    (hh : (g.header functions).Writes () headerText)
    (hs : (g.source functions).Writes () sourceText) :
    (g.generate functions).outcome = .ok
      ⟨g.context.mock, [⟨g.context.mock.headerFile, headerText⟩,
        ⟨g.context.mock.sourceFile, sourceText⟩]⟩ := by
  obtain ⟨header, hheader, rfl⟩ := hh.output
  obtain ⟨source, hsource, rfl⟩ := hs.output
  rw [generate]
  show ((g.header functions).output >>= _).outcome = _
  rw [Run.bind_of_ok hheader]
  show ((g.source functions).output >>= _).outcome = _
  rw [Run.bind_of_ok hsource]
  rfl

/-- Without plugins, and with values of zeros, no generation fails. -/
theorem outcome_generate_zeroed (context : Context) (functions : List Signature) :
    (generate { context } functions).outcome = .ok
      ⟨context.mock,
        [⟨context.mock.headerFile, MockText.header context.mock.text context [] functions⟩,
          ⟨context.mock.sourceFile,
            MockText.source context.mock.text context [] .zeroed functions⟩]⟩ := by
  have hc : ∀ function ∈ functions, AllContribute { context } function := by
    intro function _ plugin hp
    cases hp
  refine outcome_generate (writes_header hc) (writes_source ?_ hc fun _ _ => rfl)
  intro plugin hp
  cases hp

/-- In a context that was resolved, and with collaborators of which none fails, a generation gives
the mock that is written down above. -/
theorem generate_text (source : ContextSource) (module : ModuleName) (g : Generator)
    (functions : List Signature)
    (hg : (Context.resolve source module).outcome = .ok g.context)
    (hi : ∀ plugin ∈ g.plugins.plugins, plugin.includes.outcome.isOk)
    (hc : ∀ function ∈ functions, g.AllContribute function)
    (hr : ∀ function ∈ functions, (g.returns.render function g.context.indent).outcome.isOk) :
    (g.generate functions).outcome =
      .ok (MockText.mock g.context g.plugins.plugins g.returns functions) := by
  obtain ⟨header, hheader, hheaderText⟩ := (writes_header hc).output
  obtain ⟨source, hsource, hsourceText⟩ := (writes_source hi hc hr).output
  obtain ⟨-, -, -, -, rfl, hmock⟩ := Context.resolve_eq_ok hg
  have hfiles : (g.generate functions).outcome = .ok
      ⟨g.context.mock, [⟨g.context.mock.headerFile, header.render⟩,
        ⟨g.context.mock.sourceFile, source.render⟩]⟩ := by
    rw [generate]
    show ((g.header functions).output >>= _).outcome = _
    rw [Run.bind_of_ok hheader]
    show ((g.source functions).output >>= _).outcome = _
    rw [Run.bind_of_ok hsource]
    rfl
  rw [hfiles, hheaderText, hsourceText, hmock]
  rfl

/-- A plugin that counts the calls of each function. -/
def callCounter : Plugin :=
  .scripted "counter" (.ok []) fun hook function =>
    match hook with
    | .instanceStructure => .ok ["  int " ++ function.name ++ "_calls;\n"]
    | .stub => .ok ["  Mock." ++ function.name ++ "_calls++;\n"]
    | _ => .ok []

/-- What makes mocks of `uart`, with the settings left as they are. -/
def uartGenerator : Generator where
  context := ⟨⟨"uart"⟩, ⟨"Mockuart"⟩, "  ", "Mock", "", "unity.h"⟩
  plugins := ⟨[callCounter]⟩

theorem generate_text_counted :
    (uartGenerator.generate [{ name := "uart_init", returnType := "void" }]).outcome =
      .ok (MockText.mock uartGenerator.context [callCounter] .zeroed
        [{ name := "uart_init", returnType := "void" }]) := by
  apply generate_text ({} : Settings).source ⟨"uart"⟩
  · rfl
  · decide
  · intro function _ plugin hp hook
    rw [List.mem_singleton.1 hp]
    cases hook <;> rfl
  · decide

example : MockText.header "Mockuart" uartGenerator.context [] [] =
    "/* AUTOGENERATED FILE. DO NOT EDIT. */\n#ifndef _MOCKUART_H\n#define _MOCKUART_H\n\n" ++
      "#include \"uart.h\"\n\nvoid Mockuart_Init(void);\nvoid Mockuart_Destroy(void);\n" ++
      "void Mockuart_Verify(void);\n\n\n#endif\n" := by decide +kernel

end Generator

end MockForge

import MockForge.Failure
import MockForge.Proofs.Plugin.Composition

/-!
# Who is to blame

A plugin may hand what it is asked on to a chain of its own, whose plugins may do the same. When a
plugin at the bottom fails, its failure is attributed to it once, by the innermost chain, and passes
through all the chains around as it is.
-/

namespace MockForge

theorem Run.map_of_error {ε α β : Type} {run : Run ε α} {fault : ε}
    (h : run.outcome = .error fault) (f : α → β) : f <$> run = ⟨run.events, .error fault⟩ := by
  rw [map_eq_pure_bind, bind_of_error h]

/-! ## Questions -/

/-- What plugins are asked for: their includes, or what they contribute to a hook for a function. -/
inductive Question where
  | includes
  | contribution (hook : Hook) (function : Signature)

namespace Question

/-- What a question is called in reports of failures. -/
def name : Question → String
  | .includes => Chain.includesName
  | .contribution hook _ => hook.name

/-- What a plugin answers. -/
def ask : Question → Plugin → Run Fault (List String)
  | .includes, plugin => plugin.includes
  | .contribution hook function, plugin => plugin.contribution hook function

/-- The form of the answer of a chain. -/
def Answer : Question → Type
  | .includes => String
  | .contribution _ _ => List String

end Question

namespace Chain

/-- What a chain answers. -/
def answer (chain : Chain) : (question : Question) → Run Fault question.Answer
  | .includes => chain.includes
  | .contribution hook function => chain.run hook function

/-- All that happens while plugins are asked of which none fails. -/
def asked (question : Question) (plugins : List Plugin) : List Event :=
  plugins.flatMap fun plugin => (question.ask plugin).events

variable {question : Question} {before after : List Plugin} {plugin : Plugin}
variable {events : List Event} {fault : Fault}

theorem collect_of_isOk (h : ∀ plugin ∈ before, (question.ask plugin).outcome.isOk) :
    ∃ fragments, collect question.name question.ask before =
      ⟨asked question before, .ok fragments⟩ := by
  induction before with
  | nil => exact ⟨[], rfl⟩
  | cons plugin rest ih =>
      obtain ⟨hplugin, hrest⟩ := List.forall_mem_cons.1 h
      obtain ⟨others, hothers⟩ := ih hrest
      cases ho : (question.ask plugin).outcome with
      | error fault => simp [ho, Except.isOk, Except.toBool] at hplugin
      | ok own =>
          have hrecover : (question.ask plugin).recover (plugin.blame question.name) =
              question.ask plugin := by
            rw [Run.recover, ho]
          refine ⟨own ++ others, ?_⟩
          rw [collect, hrecover, Run.bind_of_ok ho, hothers, Run.bind_of_ok rfl]
          simp [asked]

/-- A chain fails as its first failing plugin does once its failure is attributed. -/
theorem answer_of_recover (h : ∀ plugin ∈ before, (question.ask plugin).outcome.isOk)
    (hf : (question.ask plugin).recover (plugin.blame question.name) = ⟨events, .error fault⟩) :
    answer ⟨before ++ plugin :: after⟩ question =
      ⟨asked question before ++ events, .error fault⟩ := by
  have hcollect : collect question.name question.ask (before ++ plugin :: after) =
      ⟨asked question before ++ events, .error fault⟩ := by
    obtain ⟨fragments, hbefore⟩ := collect_of_isOk h
    rw [collect_append, hbefore, Run.bind_of_ok rfl, collect, hf, Run.bind_of_error rfl,
      Run.bind_of_error rfl]
  cases question with
  | contribution hook function => exact hcollect
  | includes =>
      show String.join <$> collect (Question.name .includes) (Question.ask .includes) _ = _
      rw [hcollect]
      exact Run.map_of_error rfl _

end Chain

/-! ## Attributing a failure -/

namespace Plugin

variable {plugin : Plugin} {hook : String} {run : Run Fault (List String)} {fault : Fault}

/-- A failure that nobody is blamed for yet is attributed to the plugin, with one notice. -/
theorem recover_blame (h : run.outcome = .error fault) (hp : fault.isPlugin = false) :
    run.recover (plugin.blame hook) =
      ⟨run.events ++ [.noted (.pluginFailed plugin.name hook fault.message)],
        .error (.plugin plugin.name hook fault.message)⟩ := by
  simp only [Run.recover, h, blame, hp]
  rfl

/-- A failure that is attributed stays as it is, and nothing is told. -/
theorem recover_blame_of_isPlugin (h : run.outcome = .error fault) (hp : fault.isPlugin = true) :
    run.recover (plugin.blame hook) = ⟨run.events, .error fault⟩ := by
  simp [Run.recover, h, blame, hp, Run.fail, Run.ofOutcome]

/-- A plugin hands a question on to a chain of its own and passes on the answer in lines. -/
def Delegates (plugin : Plugin) (question : Question) (inner : Chain) : Prop :=
  ∃ lines : question.Answer → List String, question.ask plugin = lines <$> inner.answer question

/-- A plugin that hands on everything. -/
def delegating (name : String) (inner : Chain) : Plugin where
  name
  includes := ([·]) <$> inner.includes
  contribution hook function := id <$> inner.run hook function

theorem delegating_delegates (name : String) (inner : Chain) (question : Question) :
    (delegating name inner).Delegates question inner := by
  cases question with
  | includes => exact ⟨([·]), rfl⟩
  | contribution hook function => exact ⟨id, rfl⟩

end Plugin

/-- A plugin stands in the innermost of chains of which each hands a question on to the next, at
some depth. No plugin that is asked before fails; with all that happens while they and the plugin
are asked. -/
inductive Buried (question : Question) (culprit : Plugin) : Nat → List Event → Chain → Prop where
  | innermost {before after} :
      (∀ plugin ∈ before, (question.ask plugin).outcome.isOk) →
      Buried question culprit 0 (Chain.asked question before ++ (question.ask culprit).events)
        ⟨before ++ culprit :: after⟩
  | within {depth events inner before delegate after} :
      Buried question culprit depth events inner →
      delegate.Delegates question inner →
      (∀ plugin ∈ before, (question.ask plugin).outcome.isOk) →
      Buried question culprit (depth + 1) (Chain.asked question before ++ events)
        ⟨before ++ delegate :: after⟩

namespace Buried

variable {question : Question} {culprit : Plugin} {depth : Nat} {events told : List Event}
variable {chain : Chain} {fault final : Fault}

/-- What the innermost chain makes of a failure comes out of the outermost one. -/
theorem answer_eq (h : Buried question culprit depth events chain)
    (hf : (question.ask culprit).recover (culprit.blame question.name) =
      ⟨(question.ask culprit).events ++ told, .error final⟩)
    (hp : final.isPlugin = true) :
    chain.answer question = ⟨events ++ told, .error final⟩ := by
  induction h with
  | innermost hbefore =>
      rw [Chain.answer_of_recover hbefore hf, List.append_assoc]
  | @within depth events inner before delegate after _ hdelegates hbefore ih =>
      obtain ⟨lines, hlines⟩ := hdelegates
      have hask : question.ask delegate = ⟨events ++ told, .error final⟩ := by
        rw [hlines, ih]
        exact Run.map_of_error rfl _
      have hrecover : (question.ask delegate).recover (delegate.blame question.name) =
          ⟨events ++ told, .error final⟩ := by
        rw [hask]
        exact Plugin.recover_blame_of_isPlugin rfl hp
      rw [Chain.answer_of_recover hbefore hrecover, List.append_assoc]

end Buried

/-- Inside contexts that are texts, a failure of a plugin keeps its exit code. -/
theorem Failure.exitCode_of_isPlugin {fault : Fault} (h : fault.isPlugin = true)
    (texts : List String) :
    exitCode ⟨texts.map .text, .fault fault⟩ = .generationError := by
  have hwrite : (links ⟨texts.map .text, .fault fault⟩).any Link.isWrite = false := by
    simp [links, Link.isWrite]
  have hfault : (links ⟨texts.map .text, .fault fault⟩).findSome? Link.fault? = some fault := by
    rw [links, List.findSome?_append, List.findSome?_map]
    have hnone : texts.findSome? (Link.fault? ∘ Link.text) = none := by
      rw [List.findSome?_eq_none_iff]
      exact fun _ _ => rfl
    rw [hnone]
    rfl
  simp [exitCode, hwrite, hfault, h]

/-- A failure at any depth comes out attributed to the plugin that failed, with its hook and its
wording, and exactly one warning tells of it; a failure that was attributed before it came to a
chain comes out as it was, and nothing tells of it. In any contexts that are texts it gives the exit
code of a generation that failed. -/
theorem failure_attributed_once (question : Question) (culprit : Plugin) (depth : Nat)
    (events : List Event) (chain : Chain) (fault : Fault)
    (h : Buried question culprit depth events chain)
    (hf : (question.ask culprit).outcome = .error fault) :
    (fault.isPlugin = false →
      chain.answer question =
        ⟨events ++ [.noted (.pluginFailed culprit.name question.name fault.message)],
          .error (.plugin culprit.name question.name fault.message)⟩ ∧
      (Notice.pluginFailed culprit.name question.name fault.message).level = .warning) ∧
    (fault.isPlugin = true → chain.answer question = ⟨events, .error fault⟩) ∧
    ∃ final, (chain.answer question).outcome = .error final ∧
      ∀ texts : List String,
        Failure.exitCode ⟨texts.map .text, .fault final⟩ = .generationError := by
  cases hp : fault.isPlugin with
  | false =>
      have hanswer := h.answer_eq (Plugin.recover_blame hf hp) rfl
      refine ⟨fun _ => ⟨hanswer, rfl⟩, nofun, _, congrArg Run.outcome hanswer, ?_⟩
      exact Failure.exitCode_of_isPlugin rfl
  | true =>
      have hrecover : (question.ask culprit).recover (culprit.blame question.name) =
          ⟨(question.ask culprit).events ++ [], .error fault⟩ := by
        rw [List.append_nil]
        exact Plugin.recover_blame_of_isPlugin hf hp
      have hanswer := h.answer_eq hrecover hp
      rw [List.append_nil] at hanswer
      refine ⟨nofun, fun _ => hanswer, fault, congrArg Run.outcome hanswer, ?_⟩
      exact Failure.exitCode_of_isPlugin hp

/-- A chain in which a plugin that refuses functions is buried below two others. -/
def refusingBelow : Chain :=
  ⟨[.silent "quiet", .delegating "outer" ⟨[.delegating "inner" ⟨[.refusing "types"]⟩]⟩]⟩

theorem refusing_named_from_below :
    Buried (.contribution .verify { name := "uart_read", returnType := "va_list" })
      (.refusing "types") 2 [.called (.contribution "types" .verify "uart_read")]
      refusingBelow ∧
    refusingBelow.run .verify { name := "uart_read", returnType := "va_list" } =
      ⟨[.called (.contribution "types" .verify "uart_read"),
          .noted (.pluginFailed "types" "mock_verify"
            "Invalid argument: unsupported type va_list")],
        .error (.plugin "types" "mock_verify" "Invalid argument: unsupported type va_list")⟩ := by
  have hinnermost : Buried (.contribution .verify { name := "uart_read", returnType := "va_list" })
      (.refusing "types") 0 _ ⟨[] ++ .refusing "types" :: []⟩ := .innermost (by decide)
  have hinner : Buried _ _ 1 _ ⟨[] ++ .delegating "inner" ⟨[.refusing "types"]⟩ :: []⟩ :=
    .within hinnermost (Plugin.delegating_delegates _ _ _) (by decide)
  have hburied : Buried _ _ 2 _ ⟨[.silent "quiet"] ++
      .delegating "outer" ⟨[.delegating "inner" ⟨[.refusing "types"]⟩]⟩ :: []⟩ :=
    .within hinner (Plugin.delegating_delegates _ _ _) (by decide)
  exact ⟨hburied, ((failure_attributed_once _ _ _ _ _ _ hburied rfl).1 rfl).1⟩

end MockForge

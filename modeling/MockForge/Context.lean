import MockForge.Name
import MockForge.Run
import MockForge.Settings

/-!
# Contexts

What every step of a generation reads. A context is resolved once, from a source that is asked for
each of its values exactly once and in a fixed order.
-/

namespace MockForge

/-- Where the values of a context come from. -/
structure ContextSource where
  indent : Run Fault String
  symbolPrefix : Run Fault String
  includeBlock : Run Fault String
  frameworkHeader : Run Fault String

namespace ContextSource

/-- A source that answers as told and puts every question on record. -/
def scripted (answer : Setting → Except Fault String) : ContextSource :=
  let ask (which : Setting) : Run Fault String := do
    Run.call (.setting which)
    Run.ofOutcome (answer which)
  ⟨ask .indent, ask .symbolPrefix, ask .includeBlock, ask .frameworkHeader⟩

end ContextSource

/-- Settings answer for themselves. -/
def Settings.source (settings : Settings) : ContextSource :=
  ⟨pure settings.tab, pure settings.mockPrefix, pure settings.includeBlock,
    pure settings.frameworkHeader⟩

/-- What every step of a generation reads. -/
structure Context where
  module : ModuleName
  mock : MockName
  indent : String
  symbolPrefix : String
  includeBlock : String
  frameworkHeader : String
  deriving DecidableEq, Repr

namespace Context

/-- The context for the mock of a module. -/
def resolve (source : ContextSource) (module : ModuleName) : Run Fault Context := do
  let indent ← source.indent
  let symbolPrefix ← source.symbolPrefix
  let includeBlock ← source.includeBlock
  let frameworkHeader ← source.frameworkHeader
  let mock := MockName.derive symbolPrefix module
  Run.note (.contextResolved module.text mock.text)
  return { module, mock, indent, symbolPrefix, includeBlock, frameworkHeader }

/-- A context is resolved from what its source gives. -/
theorem resolve_eq_ok {source : ContextSource} {module : ModuleName} {context : Context}
    (h : (resolve source module).outcome = .ok context) :
    source.indent.outcome = .ok context.indent ∧
      source.symbolPrefix.outcome = .ok context.symbolPrefix ∧
      source.includeBlock.outcome = .ok context.includeBlock ∧
      source.frameworkHeader.outcome = .ok context.frameworkHeader ∧
      context.module = module ∧ context.mock = .derive context.symbolPrefix module := by
  obtain ⟨indent, hi, h⟩ := Run.outcome_bind_eq_ok h
  obtain ⟨symbolPrefix, hs, h⟩ := Run.outcome_bind_eq_ok h
  obtain ⟨includeBlock, hb, h⟩ := Run.outcome_bind_eq_ok h
  obtain ⟨frameworkHeader, hf, h⟩ := Run.outcome_bind_eq_ok h
  cases h
  exact ⟨hi, hs, hb, hf, rfl, rfl⟩

/-- A context written out for a diagnosis. -/
def describe (context : Context) : String :=
  let field (name value : String) := name ++ ": " ++ value
  Text.record "GenerationContext"
    [field "module_name" ("ModuleName(" ++ Text.quoted context.module.text ++ ")"),
     field "mock_name" ("MockName(" ++ Text.quoted context.mock.text ++ ")"),
     field "indent" (Text.quoted context.indent),
     field "symbol_prefix" (Text.quoted context.symbolPrefix),
     field "include_block" (Text.quoted context.includeBlock),
     field "framework_header" (Text.quoted context.frameworkHeader)]

end Context

end MockForge

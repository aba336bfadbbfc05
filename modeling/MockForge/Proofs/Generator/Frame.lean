import MockForge.Proofs.Generator.Text

/-!
# The frame of a source

Without plugins, a source is the stubs of its functions, one after another, in a frame that depends
on the functions only in whether there are any. Main statement: `exists_frame`.
-/

namespace MockForge

/-- A step writes only one text. -/
theorem Emission.Writes.text_eq {α : Type} {step : Emission Fault α} {a b : α}
    {text other : String} (h : step.Writes a text) (ho : step.Writes b other) : text = other :=
  h.2.symm.trans ho.2

namespace Generator

variable {g : Generator} {functions others : List Signature}

/-- The steps of a source before its stubs. -/
def opening (g : Generator) (functions : List Signature) : Emission Fault Unit := do
  g.sourcePreamble g.context.mock.sourceFile
  g.instanceStructure functions
  externDeclarations

/-- The steps of a source after its stubs. -/
def closing (g : Generator) (functions : List Signature) : Emission Fault Unit := do
  g.verifyFunction functions
  g.initFunction
  g.destroyFunction functions

theorem source_eq : g.source functions = (do
    g.opening functions
    Emission.forEach g.implementation functions
    g.closing functions) := by
  simp only [source, opening, closing, bind_assoc]

/-- Without plugins nothing is contributed. -/
theorem contributions_eq_pure (h : g.plugins.plugins = []) (hook : Hook)
    (functions : List Signature) : g.contributions hook functions = pure () := by
  induction functions with
  | nil => rfl
  | cons function rest ih =>
      have hrun : g.plugins.run hook function = pure [] := by
        rw [Chain.run, h]
        rfl
      show Emission.ofFragments (g.plugins.run hook function) >>= (fun () =>
        g.contributions hook rest) = _
      rw [ih, hrun]
      rfl

/-- Without plugins, all that matters before the stubs is whether there are any. -/
theorem opening_eq (h : g.plugins.plugins = []) (he : others.isEmpty = functions.isEmpty) :
    g.opening others = g.opening functions := by
  simp only [opening, instanceStructure, contributions_eq_pure h, he]

/-- Without plugins, the functions do not matter after their stubs. -/
theorem closing_eq (h : g.plugins.plugins = []) (functions others : List Signature) :
    g.closing others = g.closing functions := by
  simp only [closing, verifyFunction, destroyFunction, contributions_eq_pure h]

theorem exists_writes_opening (hi : ∀ plugin ∈ g.plugins.plugins, plugin.includes.outcome.isOk)
    (hc : ∀ function ∈ functions, g.AllContribute function) :
    ∃ text, (g.opening functions).Writes () text := by
  constructor
  apply (writes_sourcePreamble hi _).bind
  apply (writes_instanceStructure hc).bind
  exact Emission.writes_emit _

theorem exists_writes_closing (hc : ∀ function ∈ functions, g.AllContribute function) :
    ∃ text, (g.closing functions).Writes () text := by
  constructor
  apply (writes_verifyFunction hc).bind
  apply (Emission.writes_emit _).bind
  exact writes_destroyFunction hc

/-- Without plugins, a source is the stubs of its functions, one after another, in a frame that
depends on the functions only in whether there are any. -/
theorem exists_frame (context : Context) (functions : List Signature) :
    ∃ before after : String, ∀ others : List Signature, others.isEmpty = functions.isEmpty →
      MockText.source context.mock.text context [] .zeroed others =
        before ++ String.join (others.map (MockText.stub [] .zeroed context.indent)) ++ after := by
  let g : Generator := { context }
  have hi : ∀ plugin ∈ g.plugins.plugins, plugin.includes.outcome.isOk :=
    fun _ hp => absurd hp List.not_mem_nil
  have hc (function : Signature) : g.AllContribute function :=
    fun _ hp => absurd hp List.not_mem_nil
  obtain ⟨before, hopening⟩ : ∃ text, (g.opening functions).Writes () text :=
    exists_writes_opening hi fun f _ => hc f
  obtain ⟨after, hclosing⟩ : ∃ text, (g.closing functions).Writes () text :=
    exists_writes_closing fun f _ => hc f
  refine ⟨before, after, fun others he => ?_⟩
  have hstubs : (Emission.forEach g.implementation others).Writes () _ :=
    Emission.writes_forEach fun function _ => writes_implementation (hc function) rfl
  have hsource : (g.source others).Writes () _ :=
    writes_source hi (fun f _ => hc f) fun _ _ => rfl
  rw [source_eq, opening_eq rfl he, closing_eq rfl functions] at hsource
  rw [String.append_assoc]
  apply hsource.text_eq (a := ())
  apply hopening.bind
  apply hstubs.bind
  exact hclosing

end Generator

end MockForge

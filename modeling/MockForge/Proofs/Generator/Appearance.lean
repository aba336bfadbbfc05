import MockForge.Proofs.Generator.Text
import MockForge.Proofs.Header.RoundTrip

/-!
# What of a signature shows

A mock shows of each function its name, what it returns, what stands between its parentheses and
the words in front of it. When the collaborators of a generation tell functions apart by no more
than that, nor does the generation. Main statement: `appearance_decides`.
-/

namespace MockForge

/-! ## What shows -/

/-- Two signatures that are written alike: a word that is absent is as good as an empty one, and
only the whole text between the parentheses counts. -/
structure Signature.SameAppearance (f f' : Signature) : Prop where
  name : f.name = f'.name
  returnType : f.returnType = f'.returnType
  parameterText : f.parameterText = f'.parameterText
  modifier : f.modifier.getD "" = f'.modifier.getD ""
  attributes : f.attributes.getD "" = f'.attributes.getD ""

namespace Signature

/-- Signatures that cannot be told apart by what is asked of them are written alike. -/
theorem Alike.sameAppearance {f f' : Signature} (h : Alike f f') : SameAppearance f f' where
  name := h.name
  returnType := h.returnType
  parameterText := h.parameterText
  modifier := by rw [h.modifier]
  attributes := by rw [h.attributes]

theorem SameAppearance.returnsVoid_eq {f f' : Signature} (h : SameAppearance f f') :
    f.returnsVoid = f'.returnsVoid := by
  rw [returnsVoid, returnsVoid, h.returnType]

end Signature

open Signature (SameAppearance)

/-- Steps that are the same item by item are the same for the whole lists. -/
theorem Emission.forEach_congr {ε ι : Type} {step : ι → Emission ε Unit} {items others : List ι}
    (h : List.Forall₂ (fun item other => step item = step other) items others) :
    forEach step items = forEach step others := by
  induction h with
  | nil => rfl
  | cons hstep _ ih => rw [forEach, forEach, hstep, ih]

namespace Generator

variable {g : Generator} {f f' : Signature} {functions others : List Signature}

/-! ## Collaborators that see no more -/

/-- The collaborators of a generation tell two functions apart only by how they are written. -/
structure SeesAppearance (g : Generator) : Prop where
  run : ∀ hook f f', SameAppearance f f' → g.plugins.run hook f = g.plugins.run hook f'
  render : ∀ f f', SameAppearance f f' →
    g.returns.render f g.context.indent = g.returns.render f' g.context.indent

/-- Without plugins, and with values of zeros, there is no one to see more. -/
theorem seesAppearance_zeroed (context : Context) : SeesAppearance { context } where
  run _ _ _ _ := rfl
  render f f' h := by
    show pure (ReturnHandler.zeroedText f context.indent) =
      pure (ReturnHandler.zeroedText f' context.indent)
    rw [ReturnHandler.zeroedText, ReturnHandler.zeroedText, h.returnsVoid_eq, h.returnType]

/-! ## Single parts -/

/-- An absent word is written like an empty one. -/
theorem word_eq_word {text other : Option String} (h : text.getD "" = other.getD "") :
    word text = word other := by
  have hgetD (text : Option String) :
      word text = if text.getD "" = "" then "" else text.getD "" ++ " " := by
    cases text <;> simp [word]
  rw [hgetD, hgetD, h]

theorem SeesAppearance.implementation_eq (hg : g.SeesAppearance) (h : SameAppearance f f') :
    g.implementation f = g.implementation f' := by
  simp only [implementation, word_eq_word h.attributes, word_eq_word h.modifier, h.returnType,
    h.name, h.parameterText, hg.run _ _ _ h, hg.render _ _ h]

theorem SeesAppearance.contributions_eq (hg : g.SeesAppearance)
    (h : List.Forall₂ SameAppearance functions others) (hook : Hook) :
    g.contributions hook functions = g.contributions hook others :=
  Emission.forEach_congr (h.imp fun f f' hf => by rw [hg.run hook f f' hf])

/-! ## The whole -/

/-- Functions that are written alike have the same mock, and the same happens on the way to it. -/
theorem SeesAppearance.generate_eq (hg : g.SeesAppearance)
    (h : List.Forall₂ SameAppearance functions others) :
    g.generate functions = g.generate others := by
  have hcontributions (hook : Hook) :
      g.contributions hook functions = g.contributions hook others :=
    hg.contributions_eq h hook
  have hstubs : Emission.forEach g.implementation functions =
      Emission.forEach g.implementation others :=
    Emission.forEach_congr (h.imp fun _ _ => hg.implementation_eq)
  have hempty : functions.isEmpty = others.isEmpty := by
    cases h <;> rfl
  have hheader : g.header functions = g.header others := by
    simp only [header, functionDeclarations, hcontributions]
  have hsource : g.source functions = g.source others := by
    simp only [source, instanceStructure, verifyFunction, destroyFunction, hcontributions, hstubs,
      hempty]
  simp only [generate, hheader, hsource, h.length_eq]

/-- Without plugins, and with values of zeros, a mock depends on no more than how its functions are
written: for two lists of functions that are written alike one by one there is one mock. So it is
for the functions of a header and those that are read again from its document. -/
theorem appearance_decides (context : Context) (functions others : List Signature)
    (h : List.Forall₂ SameAppearance functions others) :
    (∃ mock, (generate { context } functions).outcome = .ok mock ∧
      (generate { context } others).outcome = .ok mock) ∧
    generate { context } functions = generate { context } others ∧
    ∃ reread : Header, Header.ofJson (Header.toJson ⟨functions⟩).compactText = .ok reread ∧
      generate { context } reread.functions = generate { context } functions := by
  have hsame := (seesAppearance_zeroed context).generate_eq h
  refine ⟨?_, hsame, ⟨functions.map Signature.canonical⟩, ?_, ?_⟩
  · have hmock := outcome_generate_zeroed context functions
    exact ⟨_, hmock, hsame ▸ hmock⟩
  · rw [Header.ofJson, Header.ofJson?, Json.document_of_reads (Header.reads_toJson ⟨functions⟩)]
    rfl
  · refine ((seesAppearance_zeroed context).generate_eq ?_).symm
    rw [List.forall₂_map_right_iff, List.forall₂_same]
    exact fun f _ => f.alike_canonical.sameAppearance

/-- A function of which the last argument is listed with the others. -/
def wholeList : Signature where
  name := "log_line"
  returnType := "int"
  modifier := some ""
  parameters := .list "const char* format, ..." ["const char* format", "..."]

/-- The same function with that argument told apart. -/
def splitList : Signature where
  name := "log_line"
  returnType := "int"
  attributes := some ""
  parameters := .list "const char* format" ["const char* format"]
  variadic := some "..."

/-- A function without arguments is the same whether `void` is said or listed. -/
theorem split_list_as_whole :
    List.Forall₂ SameAppearance
      [wholeList, { name := "log_init", returnType := "void", parameters := .void }]
      [splitList, { name := "log_init", returnType := "void", parameters := .list "void" [] }] ∧
    ∃ mock, (generate { context := uartGenerator.context }
        [wholeList, { name := "log_init", returnType := "void", parameters := .void }]).outcome =
        .ok mock ∧
      (generate { context := uartGenerator.context }
        [splitList,
          { name := "log_init", returnType := "void", parameters := .list "void" [] }]).outcome =
        .ok mock := by
  have hsame : List.Forall₂ SameAppearance
      [wholeList, { name := "log_init", returnType := "void", parameters := .void }]
      [splitList, { name := "log_init", returnType := "void", parameters := .list "void" [] }] :=
    .cons ⟨rfl, rfl, by decide +kernel, rfl, rfl⟩ (.cons ⟨rfl, rfl, rfl, rfl, rfl⟩ .nil)
  exact ⟨hsame, (appearance_decides _ _ _ hsame).1⟩

end Generator

end MockForge

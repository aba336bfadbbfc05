import Mathlib
import MockForge.Proofs.Generator.Text
import MockForge.Proofs.Settings.Document

/-!
# The symbols of a mock

A mock defines four symbols, each the name of the mock with an ending. The name is the prefix of the
settings and the name of the module, and the rule for a prefix looks at its characters only: that is
enough for a name that is an identifier of C unless the prefix starts with a digit. Main statement:
`symbols_isIdentifier_iff`.
-/

namespace MockForge

open Settings (IsWordChar isSymbolChar isSymbolChar_iff)

/-! ## Identifiers -/

/-- The digits of ASCII. -/
def IsDigit (c : Char) : Prop := '0' ≤ c ∧ c ≤ '9'

/-- The letters of ASCII, and the underscore. -/
def IsWordStart (c : Char) : Prop := ('a' ≤ c ∧ c ≤ 'z') ∨ ('A' ≤ c ∧ c ≤ 'Z') ∨ c = '_'

/-- A letter or an underscore, followed by letters, digits and underscores. -/
def IsIdentifier (text : String) : Prop :=
  (∃ c ∈ text.toList.head?, IsWordStart c) ∧ ∀ c ∈ text.toList, IsWordChar c

/-- The first character of a text is a digit. -/
def StartsWithDigit (text : String) : Prop := ∃ c ∈ text.toList.head?, IsDigit c

instance : DecidablePred IsDigit := fun c => inferInstanceAs (Decidable ('0' ≤ c ∧ c ≤ '9'))

instance : DecidablePred IsWordStart :=
  fun c => inferInstanceAs (Decidable (('a' ≤ c ∧ c ≤ 'z') ∨ ('A' ≤ c ∧ c ≤ 'Z') ∨ c = '_'))

-- Quantifiers over characters would be decided by going through all characters there are.
instance : DecidablePred IsIdentifier := fun text =>
  decidable_of_iff (text.toList.head?.any (decide <| IsWordStart ·) ∧ text.toList.all isSymbolChar)
    (by simp [IsIdentifier, isSymbolChar_iff, Option.any_eq_true])

instance : DecidablePred StartsWithDigit := fun text =>
  decidable_of_iff (text.toList.head?.any (decide <| IsDigit ·))
    (by simp [StartsWithDigit, Option.any_eq_true])

/-- A name starts with what may stand in it, digits apart. -/
theorem isWordStart_iff (c : Char) : IsWordStart c ↔ IsWordChar c ∧ ¬IsDigit c := by
  have hcode : c = '_' ↔ c.val.toNat = 95 := by
    rw [Char.ext_iff, ← UInt32.toNat_inj]
    rfl
  simp only [IsWordStart, IsWordChar, IsDigit, hcode, Char.le_def, UInt32.le_iff_toNat_le]
  simp only [Char.reduceVal, UInt32.reduceToNat]
  omega

section

variable {front back : String}

/-- What is put in front of an identifier decides on the whole, if it is there. -/
theorem isIdentifier_append_iff (hf : ∀ c ∈ front.toList, IsWordChar c) (hb : IsIdentifier back) :
    IsIdentifier (front ++ back) ↔ ¬StartsWithDigit front := by
  have hall : ∀ c ∈ (front ++ back).toList, IsWordChar c := by
    rw [String.toList_append, List.forall_mem_append]
    exact ⟨hf, hb.2⟩
  rw [IsIdentifier, and_iff_left hall, StartsWithDigit, String.toList_append]
  cases hfront : front.toList with
  | nil => simpa using hb.1
  | cons c rest =>
      have hc : IsWordChar c := hf c (by simp [hfront])
      simp [isWordStart_iff, hc]

/-- An ending of letters, digits and underscores changes nothing. -/
theorem isIdentifier_append_iff_left (hne : front.toList ≠ [])
    (hb : ∀ c ∈ back.toList, IsWordChar c) :
    IsIdentifier (front ++ back) ↔ IsIdentifier front := by
  rw [IsIdentifier, IsIdentifier, String.toList_append, List.forall_mem_append, and_iff_left hb,
    List.head?_append_of_ne_nil _ hne]

end

/-! ## Symbols -/

/-- What a mock defines for the tests that use it. -/
inductive Symbol
  | init
  | destroy
  | verify
  | state
  deriving DecidableEq, Repr

namespace Symbol

/-- What stands behind the name of the mock. -/
def ending : Symbol → String
  | init => "_Init"
  | destroy => "_Destroy"
  | verify => "_Verify"
  | state => "Instance"

/-- The symbol of a mock. -/
def spelling (symbol : Symbol) (name : MockName) : String := name.text ++ symbol.ending

/-- How a source starts to define a symbol. -/
def definition (name : MockName) : Symbol → String
  | state => "static struct " ++ state.spelling name ++ "\n"
  | symbol => "void " ++ symbol.spelling name ++ "(void)\n" ++ bodyStart

/-- How a header declares a symbol that is a function. -/
def prototype (name : MockName) (symbol : Symbol) : String :=
  "void " ++ symbol.spelling name ++ "(void);\n"

theorem isWordChar_ending (symbol : Symbol) : ∀ c ∈ symbol.ending.toList, IsWordChar c := by
  simp only [← isSymbolChar_iff, ← List.all_eq_true]
  cases symbol <;> decide

theorem isIdentifier_spelling_iff (symbol : Symbol) {name : MockName} (h : name.text.toList ≠ []) :
    IsIdentifier (symbol.spelling name) ↔ IsIdentifier name.text :=
  isIdentifier_append_iff_left h symbol.isWordChar_ending

end Symbol

/-! ## The symbols in a generated mock -/

/-- A text is somewhere in another one. -/
def Occurs (part text : String) : Prop := part.toList <:+: text.toList

theorem occurs_join {part : String} {fragments : List String}
    (h : ∃ fragment ∈ fragments, Occurs part fragment) : Occurs part (String.join fragments) := by
  obtain ⟨fragment, hf, ho⟩ := h
  obtain ⟨before, after, rfl⟩ := List.append_of_mem hf
  rw [String.join_append, String.join_cons, Occurs, String.toList_append, String.toList_append]
  obtain ⟨front, back, he⟩ := ho
  refine ⟨(String.join before).toList ++ front, back ++ (String.join after).toList, ?_⟩
  rw [← he]
  simp only [List.append_assoc]

namespace Emission

variable {α β : Type}

/-- Steps that succeed one after another leave all of their fragments. -/
theorem bind_eq_ok {first : Emission Fault α} {next : α → Emission Fault β} {b : β}
    (h : (first >>= next).run.outcome = .ok b) :
    ∃ a, (next a).run.outcome = .ok b ∧
      (first >>= next).fragments = first.fragments ++ (next a).fragments := by
  rw [run_bind] at h
  obtain ⟨a, hfirst, hnext⟩ := Run.outcome_bind_eq_ok h
  exact ⟨a, hnext, fragments_bind_of_ok hfirst next⟩

theorem output_eq_ok {step : Emission Fault Unit} {out : Output}
    (h : step.output.outcome = .ok out) :
    step.run.outcome = .ok () ∧ out.render = String.join step.fragments := by
  rw [output, map_eq_pure_bind] at h
  obtain ⟨_, hrun, hout⟩ := Run.outcome_bind_eq_ok h
  cases hout
  exact ⟨hrun, rfl⟩

end Emission

namespace Generator

variable {g : Generator} {functions : List Signature}

theorem definition_state_mem :
    Symbol.state.definition g.context.mock ∈ (g.instanceStructure functions).fragments := by
  rw [instanceStructure, Emission.fragments_bind_of_ok rfl]
  simp [Emission.emit, Symbol.definition, Symbol.spelling, Symbol.ending, String.append_assoc]

theorem definition_verify_mem :
    Symbol.verify.definition g.context.mock ∈ (g.verifyFunction functions).fragments := by
  rw [verifyFunction, Emission.fragments_bind_of_ok rfl]
  simp [Emission.emit, Symbol.definition, Symbol.spelling, Symbol.ending, String.append_assoc]

theorem definition_init_mem :
    Symbol.init.definition g.context.mock ∈ g.initFunction.fragments := by
  simp [initFunction, Emission.emit, Symbol.definition, Symbol.spelling, Symbol.ending,
    String.append_assoc]

theorem definition_destroy_mem :
    Symbol.destroy.definition g.context.mock ∈ (g.destroyFunction functions).fragments := by
  rw [destroyFunction, Emission.fragments_bind_of_ok rfl]
  simp [Emission.emit, Symbol.definition, Symbol.spelling, Symbol.ending, String.append_assoc]

/-- A source that is written to its end defines all symbols. -/
theorem definition_mem_source (h : (g.source functions).run.outcome = .ok ()) (symbol : Symbol) :
    symbol.definition g.context.mock ∈ (g.source functions).fragments := by
  rw [source] at h ⊢
  obtain ⟨-, h, hpreamble⟩ := Emission.bind_eq_ok h
  obtain ⟨-, h, hstate⟩ := Emission.bind_eq_ok h
  obtain ⟨-, h, hextern⟩ := Emission.bind_eq_ok h
  obtain ⟨-, h, hstubs⟩ := Emission.bind_eq_ok h
  obtain ⟨-, h, hverify⟩ := Emission.bind_eq_ok h
  obtain ⟨-, h, hinit⟩ := Emission.bind_eq_ok h
  rw [hpreamble, hstate, hextern, hstubs, hverify, hinit]
  cases symbol with
  | init => simp [definition_init_mem]
  | destroy => simp [definition_destroy_mem]
  | verify => simp [definition_verify_mem]
  | state => simp [definition_state_mem]

/-- A header declares all symbols but the structure, whatever the plugins do. -/
theorem prototype_occurs_header {symbol : Symbol} (h : symbol ≠ .state) :
    ∃ fragment ∈ (g.header functions).fragments,
      Occurs (symbol.prototype g.context.mock) fragment := by
  rw [header, Emission.fragments_bind_of_ok rfl, headerPreamble]
  cases symbol with
  | init =>
      refine ⟨Symbol.init.prototype g.context.mock, ?_, List.infix_rfl⟩
      simp [Emission.emit, Symbol.prototype, Symbol.spelling, Symbol.ending, String.append_assoc]
  | destroy =>
      refine ⟨Symbol.destroy.prototype g.context.mock, ?_, List.infix_rfl⟩
      simp [Emission.emit, Symbol.prototype, Symbol.spelling, Symbol.ending, String.append_assoc]
  | verify =>
      refine ⟨Symbol.verify.prototype g.context.mock ++ "\n", ?_, ⟨[], ['\n'], by simp⟩⟩
      simp [Emission.emit, Symbol.prototype, Symbol.spelling, Symbol.ending, String.append_assoc]
  | state => exact absurd rfl h

/-- A generated mock declares and defines its symbols by their names. -/
theorem symbols_occur {mock : Mock} (h : (g.generate functions).outcome = .ok mock) :
    ∃ header source, mock.files = [header, source] ∧
      (∀ symbol : Symbol, symbol ≠ .state →
        Occurs (symbol.prototype g.context.mock) header.content) ∧
      ∀ symbol : Symbol, Occurs (symbol.definition g.context.mock) source.content := by
  rw [generate] at h
  obtain ⟨-, -, h⟩ := Run.outcome_bind_eq_ok h
  obtain ⟨header, hheader, h⟩ := Run.outcome_bind_eq_ok h
  obtain ⟨source, hsource, h⟩ := Run.outcome_bind_eq_ok h
  obtain ⟨-, -, h⟩ := Run.outcome_bind_eq_ok h
  rw [Run.outcome_pure, Except.ok.injEq] at h
  subst h
  obtain ⟨-, hheader⟩ := Emission.output_eq_ok hheader
  obtain ⟨hok, hsource⟩ := Emission.output_eq_ok hsource
  refine ⟨⟨_, header.render⟩, ⟨_, source.render⟩, rfl, fun symbol hs => ?_, fun symbol => ?_⟩
  · dsimp only
    rw [hheader]
    exact occurs_join (prototype_occurs_header hs)
  · dsimp only
    rw [hsource]
    exact occurs_join ⟨_, definition_mem_source hok symbol, List.infix_rfl⟩

end Generator

/-! ## Which symbols are identifiers -/

theorem MockName.isIdentifier_derive_iff {settings : Settings} {module : ModuleName}
    (hs : settings.validated = .ok settings) (hm : IsIdentifier module.text) :
    IsIdentifier (MockName.derive settings.mockPrefix module).text ↔
      ¬StartsWithDigit settings.mockPrefix :=
  isIdentifier_append_iff ((settings.validated_judged).accepted.1 hs).1 hm

/-- With settings that are accepted, and for a module that is called by an identifier, the name of
the mock and all symbols that are made from it are identifiers if the prefix does not start with a
digit. If it does, none of them is. Every mock that is generated with these settings has these
symbols. -/
theorem symbols_isIdentifier_iff {settings : Settings} {module : ModuleName}
    (hs : settings.validated = .ok settings) (hm : IsIdentifier module.text) :
    (IsIdentifier (MockName.derive settings.mockPrefix module).text ↔
      ¬StartsWithDigit settings.mockPrefix) ∧
    (∀ symbol : Symbol, IsIdentifier (symbol.spelling (.derive settings.mockPrefix module)) ↔
      ¬StartsWithDigit settings.mockPrefix) ∧
    ∀ (g : Generator) (functions : List Signature) (mock : Mock),
      (Context.resolve settings.source module).outcome = .ok g.context →
      (g.generate functions).outcome = .ok mock →
      ∃ header source, mock.files = [header, source] ∧
        (∀ symbol : Symbol, symbol ≠ .state →
          Occurs (symbol.prototype (.derive settings.mockPrefix module)) header.content) ∧
        ∀ symbol : Symbol,
          Occurs (symbol.definition (.derive settings.mockPrefix module)) source.content := by
  have hname := MockName.isIdentifier_derive_iff hs hm
  have hne : (MockName.derive settings.mockPrefix module).text.toList ≠ [] := by
    obtain ⟨c, hc, -⟩ := hm.1
    intro hnil
    rw [MockName.derive, String.toList_append, List.append_eq_nil_iff] at hnil
    rw [hnil.2] at hc
    cases hc
  refine ⟨hname, fun symbol => (symbol.isIdentifier_spelling_iff hne).trans hname, ?_⟩
  intro g functions mock hg hmock
  obtain ⟨-, hprefix, -, -, -, hderive⟩ := Context.resolve_eq_ok hg
  rw [Except.ok.inj hprefix, ← hderive]
  exact Generator.symbols_occur hmock

/-- The settings that are there by default make identifiers. -/
theorem uart_symbols_are_identifiers :
    IsIdentifier "Mockuart" ∧ IsIdentifier "MockuartInstance" ∧
    ∃ header source, (Generator.uartGenerator.generate []).outcome =
        .ok ⟨⟨"Mockuart"⟩, [header, source]⟩ ∧
      Occurs "void Mockuart_Init(void);\n" header.content ∧
      Occurs "static struct MockuartInstance\n" source.content := by
  have hs : ({} : Settings).validated = .ok {} := by decide +kernel
  have hm : IsIdentifier (ModuleName.mk "uart").text := by decide +kernel
  obtain ⟨hname, hsymbols, hoccur⟩ := symbols_isIdentifier_iff hs hm
  have hdigit : ¬StartsWithDigit "Mock" := by decide +kernel
  obtain ⟨header, source, hfiles, hprototypes, hdefinitions⟩ :=
    hoccur Generator.uartGenerator [] _ rfl rfl
  exact ⟨hname.2 hdigit, (hsymbols .state).2 hdigit, header, source, by rw [← hfiles]; rfl,
    hprototypes .init nofun, hdefinitions .state⟩

/-- A digit passes the rule for a prefix, although no identifier starts with one. -/
theorem digit_prefix_accepted :
    ({ mockPrefix := "9lives" } : Settings).validated = .ok { mockPrefix := "9lives" } ∧
    IsIdentifier "uart" ∧
    ¬IsIdentifier (MockName.derive "9lives" ⟨"uart"⟩).text ∧
    ∀ symbol : Symbol, ¬IsIdentifier (symbol.spelling (.derive "9lives" ⟨"uart"⟩)) := by
  refine ⟨by decide +kernel, by decide +kernel, by decide +kernel, fun symbol => ?_⟩
  cases symbol <;> decide +kernel

end MockForge

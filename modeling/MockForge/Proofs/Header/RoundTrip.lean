import Mathlib.Data.List.Forall2
import MockForge.Header
import MockForge.Proofs.Json.RoundTrip

/-!
# Headers and their documents

A header that is written as a document and read again is the header that it was, but for the
parameters that are a list without arguments where a plainer form says the same.
-/

namespace MockForge

open Json (Reads literal)
open Json.Record (Fills fills_field fills_optional fills_text)

/-! ## The plain form of parameters -/

/-- Parameters in their plainest form: a list without arguments is none if its text says nothing or
`void`. -/
def Parameters.canonical : Parameters → Parameters
  | .list "" [] => .empty
  | .list "void" [] => .void
  | other => other

namespace Parameters

theorem canonical_cases (p : Parameters) :
    (p = .list "" [] ∧ p.canonical = .empty) ∨ (p = .list "void" [] ∧ p.canonical = .void) ∨
      (p ≠ .list "" [] ∧ p ≠ .list "void" [] ∧ p.canonical = p) := by
  by_cases hempty : p = .list "" []
  · exact .inl ⟨hempty, by rw [hempty]; rfl⟩
  · by_cases hvoid : p = .list "void" []
    · exact .inr (.inl ⟨hvoid, by rw [hvoid]; rfl⟩)
    · refine .inr (.inr ⟨hempty, hvoid, ?_⟩)
      rw [canonical]
      · exact hempty
      · exact hvoid

theorem canonical_eq_self_iff (p : Parameters) :
    p.canonical = p ↔ p ≠ .list "" [] ∧ p ≠ .list "void" [] := by
  rcases canonical_cases p with ⟨hp, hc⟩ | ⟨hp, hc⟩ | ⟨hempty, hvoid, hc⟩
  · simp [hp, canonical]
  · simp [hp, canonical]
  · exact iff_of_true hc ⟨hempty, hvoid⟩

@[simp]
theorem text_canonical (p : Parameters) : p.canonical.text = p.text := by
  rcases canonical_cases p with ⟨hp, hc⟩ | ⟨hp, hc⟩ | ⟨-, -, hc⟩
  · rw [hc, hp]
    rfl
  · rw [hc, hp]
    rfl
  · rw [hc]

@[simp]
theorem args_canonical (p : Parameters) : p.canonical.args = p.args := by
  rcases canonical_cases p with ⟨hp, hc⟩ | ⟨hp, hc⟩ | ⟨-, -, hc⟩
  · rw [hc, hp]
    rfl
  · rw [hc, hp]
    rfl
  · rw [hc]

/-- The text and the arguments of parameters determine their plainest form. -/
theorem classify_text_args (p : Parameters) : classify p.text p.args = p.canonical := by
  rcases canonical_cases p with ⟨hp, hc⟩ | ⟨hp, hc⟩ | ⟨hempty, hvoid, hc⟩
  · rw [hc, hp]
    rfl
  · rw [hc, hp]
    rfl
  · rw [hc]
    cases p with
    | empty => rfl
    | void => rfl
    | list text args =>
        cases args with
        | nil =>
            have htext : text ≠ "" := fun h => hempty (by rw [h])
            have hword : text ≠ "void" := fun h => hvoid (by rw [h])
            simp [classify, Parameters.text, Parameters.args, htext, hword]
        | cons arg rest => simp [classify, Parameters.text, Parameters.args]

end Parameters

/-! ## Signatures -/

namespace Signature

/-- A signature with its parameters in their plainest form. -/
def canonical (f : Signature) : Signature := { f with parameters := f.parameters.canonical }

/-- What a draft holds when all fields of a signature are read. -/
def draft (f : Signature) : Draft where
  name := some f.name
  returnType := some f.returnType
  modifier := f.modifier.map some
  attributes := f.attributes.map some
  argsText := some f.parameters.text
  args := some f.parameters.args
  variadic := f.variadic.map some

theorem finish_draft (f : Signature) : f.draft.finish = .ok f.canonical := by
  have hjoin (o : Option String) : (o.map some).join = o := by cases o <;> rfl
  simp [Draft.finish, draft, canonical, hjoin, Parameters.classify_text_args]

theorem reads_texts (args : List String) :
    Reads (Json.list Json.text) (Json.Value.texts args).compact args := by
  have h : Reads (Json.list Json.text) (Json.Value.texts args).compact (args.map id) :=
    Json.reads_list fun arg _ => Json.reads_text arg
  rwa [List.map_id] at h

/-- The members of the object of a signature fill a draft. -/
theorem fills_draft (f : Signature) : Fills record {}
    ([("name", .text f.name), ("rettype", .text f.returnType)]
      ++ Json.optionalMember "modifier" f.modifier
      ++ Json.optionalMember "attributes" f.attributes
      ++ [("args_string", .text f.parameters.text), ("args", .texts f.parameters.args)]
      ++ Json.optionalMember "var_arg" f.variadic) f.draft := by
  have hname : Fills record {} [("name", .text f.name)]
      ⟨some f.name, none, none, none, none, none, none⟩ :=
    fills_text (fun s => Draft.mk (some s) none none none none none none) rfl rfl rfl f.name
  have hreturnType : Fills record ⟨some f.name, none, none, none, none, none, none⟩
      [("rettype", .text f.returnType)]
      ⟨some f.name, some f.returnType, none, none, none, none, none⟩ :=
    fills_text (fun s => Draft.mk _ (some s) none none none none none) rfl rfl rfl f.returnType
  have hmodifier : Fills record _ (Json.optionalMember "modifier" f.modifier)
      ⟨some f.name, some f.returnType, f.modifier.map some, none, none, none, none⟩ :=
    fills_optional (Draft.mk _ _ · none none none none) rfl rfl rfl f.modifier
  have hattributes : Fills record _ (Json.optionalMember "attributes" f.attributes)
      ⟨some f.name, some f.returnType, f.modifier.map some, f.attributes.map some, none, none,
        none⟩ :=
    fills_optional (Draft.mk _ _ _ · none none none) rfl rfl rfl f.attributes
  have hargsText : Fills record
      ⟨some f.name, some f.returnType, f.modifier.map some, f.attributes.map some, none, none,
        none⟩
      [("args_string", .text f.parameters.text)]
      ⟨some f.name, some f.returnType, f.modifier.map some, f.attributes.map some,
        some f.parameters.text, none, none⟩ :=
    fills_text (fun s => Draft.mk _ _ _ _ (some s) none none) rfl rfl rfl f.parameters.text
  have hargs : Fills record
      ⟨some f.name, some f.returnType, f.modifier.map some, f.attributes.map some,
        some f.parameters.text, none, none⟩
      [("args", .texts f.parameters.args)]
      ⟨some f.name, some f.returnType, f.modifier.map some, f.attributes.map some,
        some f.parameters.text, some f.parameters.args, none⟩ :=
    fills_field rfl rfl ((reads_texts f.parameters.args).map fun as =>
      Draft.mk _ _ _ _ _ (some as) none)
  have hvariadic : Fills record _ (Json.optionalMember "var_arg" f.variadic) f.draft :=
    fills_optional (Draft.mk _ _ _ _ _ _ ·) rfl rfl rfl f.variadic
  exact ((((hname.append hreturnType).append hmodifier).append hattributes).append
    (hargsText.append hargs)).append hvariadic

/-- The form that is read of the object of a signature is its plainest. -/
theorem reads_toJson (f : Signature) : Reads reader f.toJson.compact f.canonical :=
  Json.Record.reads_object f.fills_draft f.finish_draft

@[simp]
theorem toJson_canonical (f : Signature) : f.canonical.toJson = f.toJson := by
  simp [toJson, canonical]

theorem canonical_eq_self_iff (f : Signature) :
    f.canonical = f ↔ f.parameters ≠ .list "" [] ∧ f.parameters ≠ .list "void" [] := by
  rw [← Parameters.canonical_eq_self_iff]
  cases f
  simp [canonical]

/-- Two signatures that cannot be told apart by what is asked of them. -/
structure Alike (f g : Signature) : Prop where
  name : f.name = g.name
  returnType : f.returnType = g.returnType
  modifier : f.modifier = g.modifier
  attributes : f.attributes = g.attributes
  argsText : f.parameters.text = g.parameters.text
  args : f.parameters.args = g.parameters.args
  variadic : f.variadic = g.variadic
  parameterText : f.parameterText = g.parameterText
  returnsVoid : f.returnsVoid = g.returnsVoid

theorem alike_canonical (f : Signature) : Alike f f.canonical where
  name := rfl
  returnType := rfl
  modifier := rfl
  attributes := rfl
  argsText := (Parameters.text_canonical f.parameters).symm
  args := (Parameters.args_canonical f.parameters).symm
  variadic := rfl
  parameterText := by simp [parameterText, canonical]
  returnsVoid := rfl

end Signature

/-! ## Headers -/

namespace Header

theorem reads_toJson (h : Header) :
    Reads record.reader h.toJson.compact ⟨h.functions.map Signature.canonical⟩ := by
  have hlist := Json.reads_list fun (f : Signature) (_ : f ∈ h.functions) => f.reads_toJson
  have hfills : Fills record none
      [("functions", .list (h.functions.map Signature.toJson))]
      (some (h.functions.map Signature.canonical)) := fills_field rfl rfl (hlist.map some)
  exact Json.Record.reads_object hfills rfl

/-- The document of a header is read as the header with its parameters in their plainest form:
that is the header itself unless it has a function whose parameters are not. The functions are the
same in all that can be asked of them, and their document is the same. -/
theorem round_trip (h : Header) : ∃ h' : Header,
    ofJson h.toJson.compactText = .ok h' ∧
    h'.functions = h.functions.map Signature.canonical ∧
    (h' = h ↔ ∀ f ∈ h.functions, f.parameters ≠ .list "" [] ∧ f.parameters ≠ .list "void" []) ∧
    List.Forall₂ Signature.Alike h.functions h'.functions ∧
    h'.toJson.compactText = h.toJson.compactText := by
  refine ⟨⟨h.functions.map Signature.canonical⟩, ?_, rfl, ?_, ?_, ?_⟩
  · rw [ofJson, ofJson?, Json.document_of_reads h.reads_toJson]
    rfl
  · have hfunctions : h.functions.map Signature.canonical = h.functions ↔
        ∀ f ∈ h.functions, f.canonical = f := by
      rw [← List.map_inj_left, List.map_id']
    cases h
    simpa only [mk.injEq, Signature.canonical_eq_self_iff] using hfunctions
  · rw [List.forall₂_map_right_iff, List.forall₂_same]
    exact fun f _ => f.alike_canonical
  · simp [toJson, Function.comp_def]

end Header

end MockForge

import Mathlib
import MockForge.Proofs.Command.Generation
import MockForge.Proofs.Settings.Table

/-!
# Settings from a document

A document is refused for a value of the wrong form, wherever it stands, before it is refused for
what a value says. Settings that get past both are valid, and whatever a command does with them
they stay so. Main statement: `only_valid_settings`.
-/

namespace MockForge

namespace Settings

open Toml (Table)

/-! ## The rules -/

/-- The letters and digits of ASCII, and the underscore. -/
def IsWordChar (c : Char) : Prop :=
  ('a' ≤ c ∧ c ≤ 'z') ∨ ('A' ≤ c ∧ c ≤ 'Z') ∨ ('0' ≤ c ∧ c ≤ '9') ∨ c = '_'

theorem isSymbolChar_iff (c : Char) : isSymbolChar c = true ↔ IsWordChar c := by
  simp only [isSymbolChar, Char.isAlphanum, Char.isAlpha, Char.isUpper, Char.isLower, Char.isDigit,
    Bool.or_eq_true, Bool.and_eq_true, decide_eq_true_eq, IsWordChar]
  change (((65 ≤ c.val ∧ c.val ≤ 90) ∨ (97 ≤ c.val ∧ c.val ≤ 122)) ∨ (48 ≤ c.val ∧ c.val ≤ 57)) ∨
    c = '_' ↔ (97 ≤ c.val ∧ c.val ≤ 122) ∨ (65 ≤ c.val ∧ c.val ≤ 90) ∨
      (48 ≤ c.val ∧ c.val ≤ 57) ∨ c = '_'
  tauto

/-- The prefix consists of characters of a name in C. It need not start one: it may start with a
digit. -/
def PrefixFits (settings : Settings) : Prop := ∀ c ∈ settings.mockPrefix.toList, IsWordChar c

/-- The framework header is not blank. -/
def HeaderFits (settings : Settings) : Prop := ¬Text.isBlank settings.frameworkHeader

/-- No header to include is blank. -/
def IncludesFit (settings : Settings) : Prop := ∀ header ∈ settings.includes, ¬Text.isBlank header

/-- What becomes of settings: they are accepted when they follow all rules, or else refused for the
first rule that they break. -/
structure Judged (settings : Settings) (result : Except Fault Settings) : Prop where
  accepted : result = .ok settings ↔
    settings.PrefixFits ∧ settings.HeaderFits ∧ settings.IncludesFit
  mockPrefix : ¬settings.PrefixFits → result = .error (.validation "mock_prefix"
    ("'" ++ settings.mockPrefix ++ "' is not a valid C identifier prefix"))
  frameworkHeader : settings.PrefixFits → ¬settings.HeaderFits →
    result = .error (.validation "framework_header" "cannot be empty")
  includes : settings.PrefixFits → settings.HeaderFits → ¬settings.IncludesFit →
    result = .error (.validation "includes" "entries cannot be empty")

theorem all_isSymbolChar_iff (settings : Settings) :
    settings.mockPrefix.toList.all isSymbolChar = true ↔ settings.PrefixFits := by
  simp only [List.all_eq_true, isSymbolChar_iff, PrefixFits]

instance (settings : Settings) : Decidable settings.PrefixFits :=
  decidable_of_iff _ (all_isSymbolChar_iff settings)

instance (settings : Settings) : Decidable settings.HeaderFits :=
  inferInstanceAs (Decidable (¬_))

instance (settings : Settings) : Decidable settings.IncludesFit :=
  inferInstanceAs (Decidable (∀ header ∈ settings.includes, _))

theorem validated_eq (settings : Settings) :
    settings.validated =
      if ¬settings.PrefixFits then .error (.validation "mock_prefix"
        ("'" ++ settings.mockPrefix ++ "' is not a valid C identifier prefix"))
      else if ¬settings.HeaderFits then .error (.validation "framework_header" "cannot be empty")
      else if ¬settings.IncludesFit then .error (.validation "includes" "entries cannot be empty")
      else .ok settings := by
  have hincludes : settings.includes.any Text.isBlank = true ↔ ¬settings.IncludesFit := by
    simp [List.any_eq_true, IncludesFit]
  have hheader : Text.isBlank settings.frameworkHeader = true ↔ ¬settings.HeaderFits := by
    simp [HeaderFits]
  simp only [validated, fault?, Bool.not_eq_true', ← Bool.not_eq_true, all_isSymbolChar_iff,
    hheader, hincludes]
  split_ifs <;> rfl

theorem validated_judged (settings : Settings) : Judged settings settings.validated := by
  rw [validated_eq]
  by_cases hname : settings.PrefixFits
  · by_cases hheader : settings.HeaderFits
    · by_cases hincludes : settings.IncludesFit <;> constructor <;> simp [*]
    · constructor <;> simp [*]
  · constructor <;> simp [*]

/-! ## Documents -/

section

variable {document : String} {table : Table}

theorem ofToml_of_document (h : Toml.document document = .ok table) :
    ofToml document = match ofTable table with
      | .error cause => .error (.configuration (.document cause))
      | .ok settings => settings.validated := by
  unfold ofToml
  split
  · next h' => cases h.symm.trans h'
  · next h' =>
    cases h.symm.trans h'
    rfl

/-- A value of the wrong form goes before all rules, and so does a number that is too big. -/
theorem ofToml_of_unusable (h : Toml.document document = .ok table)
    (hu : Mistyped table ∨ Overflowing table) :
    ∃ cause, ofToml document = .error (.configuration (.document cause)) := by
  obtain ⟨cause, hc⟩ := ofTable_eq_error (Toml.document_distinct h) hu
  exact ⟨cause, by rw [ofToml_of_document h, hc]⟩

theorem ofToml_of_usable (h : Toml.document document = .ok table) (hm : ¬Mistyped table)
    (ho : ¬Overflowing table) :
    ∃ settings, Told table settings ∧ Judged settings (ofToml document) := by
  obtain ⟨settings, ht⟩ := exists_told hm
  refine ⟨settings, ht, ?_⟩
  rw [ofToml_of_document h, ofTable_of_told (Toml.document_distinct h) ho ht]
  exact validated_judged settings

/-- Nothing counts but what stands under the known keys. -/
theorem ofToml_congr {other : String} {otherTable : Table}
    (h : Toml.document document = .ok table) (h' : Toml.document other = .ok otherTable)
    (ho : ¬Overflowing table) (ho' : ¬Overflowing otherTable)
    (hk : ∀ key ∈ knownKeys, table.lookup key = otherTable.lookup key) :
    ofToml document = ofToml other := by
  rw [ofToml_of_document h, ofToml_of_document h', ofTable_eq_settle (Toml.document_distinct h) ho,
    ofTable_eq_settle (Toml.document_distinct h') ho', foldlM_settle_congr hk]

end

/-- The directory of the mocks is not looked at by any rule. -/
theorem validated_redirect {settings : Settings} (h : settings.validated = .ok settings)
    (request : Command.Request) :
    (request.redirect settings).validated = .ok (request.redirect settings) := by
  have hnone : settings.fault? = none := by
    unfold validated at h
    split at h
    · cases h
    · assumption
  have hredirect : (request.redirect settings).fault? = settings.fault? := by
    unfold Command.Request.redirect
    cases request.outputDirectory <;> rfl
  rw [validated, hredirect, hnone]

end Settings

namespace Command

open Settings

/-- Loaded settings are valid, and if none can be loaded that is not found out by looking at them
once more. -/
theorem loadSettings_cases (fs : FileSystem) (path : Option Path) :
    (∃ settings, ((loadSettings path).run fs).value = .ok settings ∧
      settings.validated = .ok settings) ∨
    ∃ source fault, ((loadSettings path).run fs).value = .error
      ⟨[.text ("failed to load configuration from " ++ source)], .fault fault⟩ := by
  cases hs : settingsFor fs path with
  | ok settings =>
      exact .inl ⟨settings, (loadSettings_of_ok hs).1, validated_of_settingsFor hs⟩
  | error fault =>
      cases path with
      | none => cases hs
      | some path => exact .inr ⟨path.spelling, fault, (loadSettings_of_error hs).1⟩

theorem loadSettings_not_invalid {fs : FileSystem} {path : Option Path} {failure : Failure}
    (h : ((loadSettings path).run fs).value = .error failure) :
    Link.text "invalid configuration" ∉ failure.links := by
  rcases loadSettings_cases fs path with ⟨settings, hs, -⟩ | ⟨source, fault, hs⟩
  · rw [hs] at h
    cases h
  · rw [hs] at h
    cases h
    have hne : "invalid configuration" ≠ "failed to load configuration from " ++ source := by
      intro he
      have hhead := congrArg (List.head? ∘ String.toList) he
      simp at hhead
    simp [Failure.links, hne]

theorem validated_of_loadSettings {fs : FileSystem} {path : Option Path} {settings : Settings}
    (h : ((loadSettings path).run fs).value = .ok settings) :
    settings.validated = .ok settings := by
  rcases loadSettings_cases fs path with ⟨loaded, hl, hv⟩ | ⟨source, fault, hl⟩
  · rw [hl] at h
    cases h
    exact hv
  · rw [hl] at h
    cases h

/-- A plan follows the settings that were loaded, with another directory at most. -/
theorem plan_of_prepare {fs : FileSystem} {request : Request} {plan : Plan}
    (h : ((prepare request).run fs).value = .ok plan) :
    ∃ settings, ((loadSettings request.settings).run fs).value = .ok settings ∧
      plan.settings = request.redirect settings ∧
      plan.mock = mockFor request.module plan.settings plan.header := by
  rcases ready_or_refused fs request with ⟨other, hready⟩ | ⟨failure, hrefused⟩
  · rw [(prepare_of_ready hready).1] at h
    cases h
    obtain ⟨settings, hs, he⟩ := hready.settings
    exact ⟨settings, (loadSettings_of_ok hs).1, he, hready.mock⟩
  · rw [(prepare_of_refused hrefused).1] at h
    cases h

/-- Of a well-formed document only what stands under the known keys counts, as long as the numbers
elsewhere fit a machine number, and only valid settings reach a generation, wherever the mock
goes. A document is well-formed when the TOML reader accepts it, with values nested no deeper than
`Toml.maxDepth`. The reader takes integers of any size: whether they fit is judged only after it. -/
theorem only_valid_settings {document : String} {table : Toml.Table}
    (h : Toml.document document = .ok table) :
    (Mistyped table ∨ Overflowing table →
      ∃ cause, ofToml document = .error (.configuration (.document cause))) ∧
    (¬Mistyped table → ¬Overflowing table →
      ∃ settings, Told table settings ∧ Judged settings (ofToml document)) ∧
    (∀ (other : String) (otherTable : Toml.Table), Toml.document other = .ok otherTable →
      ¬Overflowing table → ¬Overflowing otherTable →
      (∀ key ∈ knownKeys, table.lookup key = otherTable.lookup key) →
      ofToml document = ofToml other) ∧
    (∀ (fs : FileSystem) (path : Option Path) (failure : Failure),
      ((loadSettings path).run fs).value = .error failure →
      Link.text "invalid configuration" ∉ failure.links) ∧
    (∀ (fs : FileSystem) (request : Request) (settings : Settings),
      ((loadSettings request.settings).run fs).value = .ok settings →
      settings.validated = .ok settings ∧
      (request.redirect settings).validated = .ok (request.redirect settings)) ∧
    (∀ (fs : FileSystem) (request : Request) (plan : Plan),
      ((prepare request).run fs).value = .ok plan →
      plan.settings.validated = .ok plan.settings ∧
      plan.mock = mockFor request.module plan.settings plan.header ∧
      ∃ settings, ((loadSettings request.settings).run fs).value = .ok settings ∧
        plan.settings = request.redirect settings) := by
  refine ⟨ofToml_of_unusable h, ofToml_of_usable h, ?congr, ?load, ?redirect, ?plan⟩
  case congr => exact fun other otherTable h' ho ho' hk => ofToml_congr h h' ho ho' hk
  case load => exact fun fs path failure => loadSettings_not_invalid
  case redirect =>
    intro fs request settings hs
    have hv := validated_of_loadSettings hs
    exact ⟨hv, validated_redirect hv request⟩
  case plan =>
    intro fs request plan hp
    obtain ⟨settings, hs, he, hm⟩ := plan_of_prepare hp
    have hv := validated_redirect (validated_of_loadSettings hs) request
    exact ⟨he ▸ hv, hm, settings, hs, he⟩

theorem dashed_prefix_refused :
    Toml.document "mock_prefix = \"Fake-\"\n[more]\ntab = 1" =
      .ok [("mock_prefix", .text "Fake-"), ("more", .table [("tab", .integer 1)])] ∧
    ofToml "mock_prefix = \"Fake-\"\n[more]\ntab = 1" =
      .error (.validation "mock_prefix" "'Fake-' is not a valid C identifier prefix") := by
  have hstatements : Toml.statements "mock_prefix = \"Fake-\"\n[more]\ntab = 1".toList =
      .ok [.entry [] "mock_prefix" (.text "Fake-"), .header [] "more",
        .entry [] "tab" (.integer 1)] := by
    rw [Toml.statements_of_cons (by cbv) (by cbv) (by cbv),
      Toml.statements_of_cons (by cbv) (by cbv) (by cbv),
      Toml.statements_of_cons (by cbv) (by cbv) (by cbv), Toml.statements_of_nil (by cbv)]
    rfl
  have hread : Toml.document "mock_prefix = \"Fake-\"\n[more]\ntab = 1" =
      .ok [("mock_prefix", .text "Fake-"), ("more", .table [("tab", .integer 1)])] :=
    Toml.document_of_statements (by decide) hstatements rfl
  obtain ⟨-, husable, -⟩ := only_valid_settings hread
  obtain ⟨settings, told, judged⟩ := husable (by decide +kernel) (by decide +kernel)
  have hname : settings.mockPrefix = "Fake-" := by
    rcases told.mockPrefix with h | ⟨h, -⟩
    · exact (Toml.Value.text.inj (Option.some.inj h)).symm
    · cases h
  have hbroken : ¬settings.PrefixFits := by
    intro hfits
    have hdash := hfits '-' (by rw [hname]; decide)
    rw [← isSymbolChar_iff] at hdash
    exact absurd hdash (by decide)
  refine ⟨hread, ?_⟩
  rw [judged.mockPrefix hbroken, hname]
  rfl

/-- A number that nobody asks for is not passed over when it is beyond every machine number. -/
theorem unknown_number_refused :
    Toml.document "" = .ok [] ∧
    Toml.document "spare = 1000000000000000000000000000000000000000" =
      .ok [("spare", .integer 1000000000000000000000000000000000000000)] ∧
    (∀ key ∈ knownKeys, List.lookup key ([] : Toml.Table) =
      List.lookup key [("spare", .integer 1000000000000000000000000000000000000000)]) ∧
    ofToml "" = .ok {} ∧
    ofToml "spare = 1000000000000000000000000000000000000000" =
      .error (.configuration (.document .outOfRange)) := by
  have hempty : Toml.document "" = .ok [] :=
    Toml.document_of_statements (by decide) (Toml.statements_of_nil (by cbv)) rfl
  have hstatements :
      Toml.statements "spare = 1000000000000000000000000000000000000000".toList =
        .ok [.entry [] "spare" (.integer 1000000000000000000000000000000000000000)] := by
    rw [Toml.statements_of_cons (by cbv) (by cbv) (by cbv), Toml.statements_of_nil (by cbv)]
    rfl
  have hspare : Toml.document "spare = 1000000000000000000000000000000000000000" =
      .ok [("spare", .integer 1000000000000000000000000000000000000000)] :=
    Toml.document_of_statements (by decide) hstatements rfl
  refine ⟨hempty, hspare, by simp [knownKeys, List.lookup], ?_, ?_⟩
  · rw [ofToml_of_document hempty]
    decide +kernel
  · rw [ofToml_of_document hspare]
    decide +kernel

end Command

end MockForge

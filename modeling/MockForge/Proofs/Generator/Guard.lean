import MockForge.Proofs.Path.Extension
import MockForge.Proofs.Settings.Document

/-!
# Include guards

The guard of a header is a symbol that C accepts, whatever the header is called. It is made from the
name at the end of the header's path. Two mocks whose names are symbols therefore share a guard only
when their names differ in nothing but case. Main statement: `guards_legal_and_apart`.
-/

namespace MockForge

/-! ## The name at the end of a path -/

namespace Path

variable {text name : String}

/-- The last piece of a path that says anything is a name. -/
def EndsIn (text name : String) : Prop :=
  ∃ before after, text.toList.splitOn '/' = before ++ name.toList :: after ∧
    name.toList ∉ [[], ['.'], ['.', '.']] ∧ ∀ piece ∈ after, piece ∈ [[], ['.']]

theorem ofPiece?_eq_none_iff {piece : List Char} :
    Component.ofPiece? piece = none ↔ piece ∈ [[], ['.']] := by
  rw [Component.ofPiece?]
  split
  · next h => simpa [isIdle] using h
  · next h =>
    refine iff_of_false ?_ (by simpa [isIdle] using h)
    split <;> simp

theorem ofPiece?_eq_name_iff {piece : List Char} :
    Component.ofPiece? piece = some (.name name) ↔
      piece = name.toList ∧ piece ∉ [[], ['.'], ['.', '.']] := by
  have hname : String.ofList piece = name ↔ piece = name.toList := by
    rw [← String.toList_inj, String.toList_ofList]
  by_cases hidle : piece ∈ [[], ['.']]
  · rw [ofPiece?_eq_none_iff.2 hidle]
    exact iff_of_false nofun fun h => h.2 (List.mem_append_left [['.', '.']] hidle)
  · by_cases hup : piece = ['.', '.']
    · rw [ofPiece?_eq_up_iff.2 hup]
      exact iff_of_false nofun fun h => h.2 (by simp [hup])
    · rw [ofPiece?_eq_name (by simpa [isIdle] using hidle) hup, Option.some.injEq,
        Component.name.injEq, hname, iff_self_and]
      intro _ hm
      rcases List.mem_append.1 (show piece ∈ [[], ['.']] ++ [['.', '.']] from hm) with h | h
      · exact hidle h
      · exact hup (List.mem_singleton.1 h)

/-- The name of a path is the one that it ends in. -/
theorem fileName?_eq_some_iff : (⟨text⟩ : Path).fileName? = some name ↔ EndsIn text name := by
  -- A path starts with no name, so its name is in its trail.
  have hlast : (⟨text⟩ : Path).fileName? = some name ↔
      (trail ⟨text⟩).getLast? = some (.name name) := by
    rw [fileName?, components_eq, List.getLast?_append]
    cases (trail ⟨text⟩).getLast? with
    | none => cases (parts ⟨text⟩).1 <;> simp [Start.component?]
    | some component => cases component <;> simp
  rw [hlast, trail, List.getLast?_filterMap, List.findSome?_eq_some_iff, pieces_eq_splitOn]
  constructor
  · rintro ⟨after, piece, before, hs, hp, hafter⟩
    obtain ⟨rfl, hname⟩ := ofPiece?_eq_name_iff.1 hp
    refine ⟨before.reverse, after.reverse, ?_, hname, fun piece hm => ?_⟩
    · rw [← List.reverse_inj, hs]
      simp
    · exact ofPiece?_eq_none_iff.1 (hafter piece (List.mem_reverse.1 hm))
  · rintro ⟨before, after, hs, hname, hafter⟩
    refine ⟨after.reverse, _, before.reverse, ?_, ofPiece?_eq_name_iff.2 ⟨rfl, hname⟩, ?_⟩
    · show (text.toList.splitOn '/').reverse = _
      rw [hs]
      simp
    · exact fun piece hm => ofPiece?_eq_none_iff.2 (hafter piece (List.mem_reverse.1 hm))

end Path

/-! ## The characters of a guard -/

section Characters

variable {c d : Char}

/-- The upper-case letters and digits of ASCII, and the underscore. -/
def IsGuardChar (c : Char) : Prop := ('A' ≤ c ∧ c ≤ 'Z') ∨ ('0' ≤ c ∧ c ≤ '9') ∨ c = '_'

/-- What becomes of a character in a guard. The code of an upper-case letter is 32 below that of the
lower-case one. -/
inductive CapitalOf : Char → Char → Prop where
  | lower {c d : Char} (h : 'a' ≤ c ∧ c ≤ 'z') (hd : d.toNat + 32 = c.toNat) : CapitalOf c d
  | kept {c : Char} (h : IsGuardChar c) : CapitalOf c c
  | other {c : Char} (hl : ¬('a' ≤ c ∧ c ≤ 'z')) (hg : ¬IsGuardChar c) : CapitalOf c '_'

theorem le_iff_code_le : c ≤ d ↔ c.toNat ≤ d.toNat := by
  rw [Char.le_def, UInt32.le_iff_toNat_le]
  rfl

theorem isLower_iff : c.isLower = true ↔ 'a' ≤ c ∧ c ≤ 'z' := by
  simp [Char.isLower, Char.le_def]

theorem isAlphanum_iff : c.isAlphanum = true ↔
    ('a' ≤ c ∧ c ≤ 'z') ∨ ('A' ≤ c ∧ c ≤ 'Z') ∨ ('0' ≤ c ∧ c ≤ '9') := by
  simp only [Char.isAlphanum, Char.isAlpha, Char.isUpper, Char.isDigit, Bool.or_eq_true,
    isLower_iff, Bool.and_eq_true, decide_eq_true_eq, Char.le_def]
  tauto

theorem CapitalOf.isGuardChar (h : CapitalOf c d) : IsGuardChar d := by
  cases h with
  | lower h hd =>
      left
      rw [le_iff_code_le, le_iff_code_le] at h ⊢
      simp only [Char.reduceToNat] at h ⊢
      omega
  | kept h => exact h
  | other => exact .inr (.inr rfl)

theorem IsGuardChar.not_lower (h : IsGuardChar c) : ¬('a' ≤ c ∧ c ≤ 'z') := by
  have hcode : c.toNat ≤ '_'.toNat := by
    rcases h with ⟨-, h⟩ | ⟨-, h⟩ | rfl
    · exact (le_iff_code_le.1 h).trans (by decide)
    · exact (le_iff_code_le.1 h).trans (by decide)
    · exact le_rfl
  rintro ⟨ha, -⟩
  exact absurd ((le_iff_code_le.1 ha).trans hcode) (by decide)

/-- A character has only one capital. -/
theorem CapitalOf.unique {e : Char} (h : CapitalOf c d) (ho : CapitalOf c e) : d = e := by
  cases h with
  | lower h hd =>
      cases ho with
      | lower _ he => exact Char.toNat_inj.1 (Nat.add_right_cancel (hd.trans he.symm))
      | kept hg => exact absurd h hg.not_lower
      | other hl => exact absurd h hl
  | kept hg =>
      cases ho with
      | lower h => exact absurd h hg.not_lower
      | kept => rfl
      | other _ hn => exact absurd hg hn
  | other hl hn =>
      cases ho with
      | lower h => exact absurd h hl
      | kept hg => exact absurd hg hn
      | other => rfl

theorem toNat_toUpper_add (h : 'a' ≤ c ∧ c ≤ 'z') : c.toUpper.toNat + 32 = c.toNat := by
  rw [Char.toUpper_eq_of_isLower (isLower_iff.2 h)]
  rw [le_iff_code_le, le_iff_code_le] at h
  simp only [Char.reduceToNat] at h
  rw [Char.toNat_ofNat, if_pos (.inl (by omega))]
  omega

theorem capitalOf_guardChar (c : Char) : CapitalOf c (guardChar c) := by
  by_cases hl : 'a' ≤ c ∧ c ≤ 'z'
  · rw [guardChar, if_pos (isAlphanum_iff.2 (.inl hl))]
    exact .lower hl (toNat_toUpper_add hl)
  · have hsame : c.toUpper = c := Char.toUpper_eq_of_not_isLower (mt isLower_iff.1 hl)
    rw [guardChar, hsame]
    split
    · next ha => exact .kept (((isAlphanum_iff.1 ha).resolve_left hl).imp_right .inl)
    · next ha =>
      by_cases hu : c = '_'
      · subst hu
        exact .kept (.inr (.inr rfl))
      · refine .other hl fun hg => ha (isAlphanum_iff.2 (.inr ?_))
        exact hg.imp_right fun h => h.resolve_right hu

/-- On the characters of a symbol, only the case of letters changes. -/
theorem guardChar_eq_toUpper (h : Settings.IsWordChar c) : guardChar c = c.toUpper := by
  rw [guardChar]
  split
  · rfl
  · next ha =>
    obtain rfl : c = '_' := by
      have := mt isAlphanum_iff.2 ha
      unfold Settings.IsWordChar at h
      tauto
    rfl

end Characters

/-! ## Guards -/

/-- Two texts of the same length, the second with what becomes of the characters of the first. -/
def CapitalsOf (text capitals : String) : Prop :=
  List.Forall₂ CapitalOf text.toList capitals.toList

/-- A text as it appears in a guard. -/
def capitals (text : String) : String := String.ofList (text.toList.map guardChar)

theorem capitals_spec (text : String) : CapitalsOf text (capitals text) := by
  rw [CapitalsOf, capitals, String.toList_ofList, List.forall₂_map_right_iff, List.forall₂_same]
  exact fun c _ => capitalOf_guardChar c

theorem CapitalsOf.eq_capitals {text upper : String} (h : CapitalsOf text upper) :
    upper = capitals text := by
  have hunique : Relator.RightUnique CapitalOf := fun _ _ _ => CapitalOf.unique
  exact String.toList_inj.1 (List.right_unique_forall₂' hunique h (capitals_spec text))

theorem capitals_append (s t : String) : capitals (s ++ t) = capitals s ++ capitals t := by
  rw [capitals, String.toList_append, List.map_append, String.ofList_append]
  rfl

theorem includeGuard_eq (file : String) :
    includeGuard file = "_" ++ capitals ((Path.fileName? ⟨file⟩).getD file) := rfl

theorem includeGuard_of_endsIn {file name : String} (h : Path.EndsIn file name) :
    includeGuard file = "_" ++ capitals name := by
  rw [includeGuard_eq, Path.fileName?_eq_some_iff.2 h, Option.getD_some]

theorem includeGuard_of_not_endsIn {file : String} (h : ∀ name, ¬Path.EndsIn file name) :
    includeGuard file = "_" ++ capitals file := by
  have hnone : Path.fileName? ⟨file⟩ = none :=
    Option.eq_none_iff_forall_ne_some.2 fun name hn => h name (Path.fileName?_eq_some_iff.1 hn)
  rw [includeGuard_eq, hnone, Option.getD_none]

/-- What the guard of a header must be. -/
structure IsGuard (file guard : String) : Prop where
  first : guard.toList.head? = some '_'
  legal : ∀ c ∈ guard.toList, IsGuardChar c
  /-- It is made from the name that the header's path ends in. -/
  named : ∀ name, Path.EndsIn file name →
    ∃ upper, CapitalsOf name upper ∧ guard = "_" ++ upper
  /-- It is made from the whole path where that ends in no name. -/
  unnamed : (∀ name, ¬Path.EndsIn file name) →
    ∃ upper, CapitalsOf file upper ∧ guard = "_" ++ upper
  extended : ∀ stem extension, Path.EndsIn file (stem ++ "." ++ extension) →
    ∃ front back, CapitalsOf stem front ∧ CapitalsOf extension back ∧
      guard = "_" ++ front ++ "_" ++ back

theorem isGuard_includeGuard (file : String) : IsGuard file (includeGuard file) where
  first := by
    rw [includeGuard_eq, String.toList_append]
    rfl
  legal := by
    intro c hc
    rw [includeGuard_eq, String.toList_append, List.mem_append] at hc
    rcases hc with hc | hc
    · exact .inr (.inr (List.mem_singleton.1 hc))
    · rw [capitals, String.toList_ofList, List.mem_map] at hc
      obtain ⟨d, -, rfl⟩ := hc
      exact (capitalOf_guardChar d).isGuardChar
  named name h := ⟨_, capitals_spec name, includeGuard_of_endsIn h⟩
  unnamed h := ⟨_, capitals_spec file, includeGuard_of_not_endsIn h⟩
  extended stem extension h := by
    refine ⟨_, _, capitals_spec stem, capitals_spec extension, ?_⟩
    rw [includeGuard_of_endsIn h, capitals_append, capitals_append]
    simp only [← String.append_assoc]
    rfl

/-- There is only one guard that a header can have. -/
theorem IsGuard.eq_includeGuard {file guard : String} (h : IsGuard file guard) :
    guard = includeGuard file := by
  by_cases hn : ∃ name, Path.EndsIn file name
  · obtain ⟨name, hn⟩ := hn
    obtain ⟨upper, hupper, rfl⟩ := h.named name hn
    rw [includeGuard_of_endsIn hn, hupper.eq_capitals]
  · have hnone := not_exists.1 hn
    obtain ⟨upper, hupper, rfl⟩ := h.unnamed hnone
    rw [includeGuard_of_not_endsIn hnone, hupper.eq_capitals]

/-! ## Clashes -/

theorem includeGuard_headerFile {name : MockName} (h : '/' ∉ name.text.toList) :
    includeGuard name.headerFile = "_" ++ capitals name.text ++ "_H" := by
  -- Without a slash, all of the name stands after the last one.
  have hname : Path.afterSlash name.text = name.text.toList :=
    List.rtakeWhile_eq_self_iff.2 fun c hc => by
      rw [decide_eq_true_eq]
      rintro rfl
      exact h hc
  have hfile : Path.fileName? ⟨name.headerFile⟩ =
      some (String.ofList (Path.afterSlash name.text ++ ['.', 'h'])) :=
    Path.fileName?_extended (by decide) (by decide)
  rw [includeGuard_eq, hfile, Option.getD_some, hname, String.ofList_append, String.ofList_toList,
    capitals_append, String.append_assoc]
  rfl

theorem capitals_inj {s t : String} (hs : ∀ c ∈ s.toList, Settings.IsWordChar c)
    (ht : ∀ c ∈ t.toList, Settings.IsWordChar c) :
    capitals s = capitals t ↔ s.toList.map Char.toLower = t.toList.map Char.toLower := by
  have hupper {u : String} (hu : ∀ c ∈ u.toList, Settings.IsWordChar c) :
      u.toList.map guardChar = u.toList.map Char.toUpper :=
    List.map_congr_left fun c hc => guardChar_eq_toUpper (hu c hc)
  rw [capitals, capitals, String.ofList_inj, hupper hs, hupper ht]
  constructor
  · intro h
    simpa [Function.comp_def] using congrArg (List.map Char.toLower) h
  · intro h
    simpa [Function.comp_def] using congrArg (List.map Char.toUpper) h

/-! ## Headers -/

/-- A text checks for a guard and then defines it, after the banner and before all else. -/
def Guards (guard text : String) : Prop :=
  ∃ rest, text = String.join
    [banner, "#ifndef ", guard, "\n", "#define ", guard, "\n\n", rest]

theorem headerPreamble_guards (g : Generator) (file : String) :
    Guards (includeGuard file) (String.join (g.headerPreamble file).fragments) := by
  refine ⟨String.join ((g.headerPreamble file).fragments.drop 3), ?_⟩
  simp [Generator.headerPreamble, Emission.emit, String.append_assoc, -String.reduceAppend]

/-- Whatever the file of a header is called, its preamble checks for a guard and defines the same
one: an underscore, and then upper-case letters, digits and underscores. The guard is made from the
name that the path ends in, or from all of it where there is none, and nothing else counts. The
headers of two mocks with letters, digits and underscores for names have one guard just when the
names differ at most in the case of letters. -/
theorem guards_legal_and_apart :
    (∀ (g : Generator) (file : String),
      Guards (includeGuard file) (String.join (g.headerPreamble file).fragments) ∧
        ∀ guard, guard = includeGuard file ↔ IsGuard file guard) ∧
    (∀ file other name, Path.EndsIn file name → Path.EndsIn other name →
      includeGuard file = includeGuard other) ∧
    ∀ a b : MockName, (∀ c ∈ a.text.toList, Settings.IsWordChar c) →
      (∀ c ∈ b.text.toList, Settings.IsWordChar c) →
      (includeGuard a.headerFile = includeGuard b.headerFile ↔
        a.text.toList.map Char.toLower = b.text.toList.map Char.toLower) := by
  refine ⟨fun g file => ⟨headerPreamble_guards g file, fun guard => ⟨?_, ?_⟩⟩,
    fun file other name hf ho => ?_, fun a b ha hb => ?_⟩
  · rintro rfl
    exact isGuard_includeGuard file
  · exact IsGuard.eq_includeGuard
  · rw [includeGuard_of_endsIn hf, includeGuard_of_endsIn ho]
  · have hslash {name : MockName} (h : ∀ c ∈ name.text.toList, Settings.IsWordChar c) :
        '/' ∉ name.text.toList := fun hm =>
      absurd ((Settings.isSymbolChar_iff _).2 (h _ hm)) (by decide)
    rw [includeGuard_headerFile (hslash ha), includeGuard_headerFile (hslash hb),
      String.append_left_inj, String.append_right_inj]
    exact capitals_inj ha hb

theorem uart_guards :
    includeGuard "build/Mock_uart-v2.h/." = includeGuard "./Mock_uart-v2.h" ∧
      includeGuard (⟨"Mockuart"⟩ : MockName).headerFile =
        includeGuard (⟨"MOCKUART"⟩ : MockName).headerFile ∧
      includeGuard (⟨"Mockuart"⟩ : MockName).headerFile ≠
        includeGuard (⟨"Mock_uart"⟩ : MockName).headerFile := by
  obtain ⟨-, hlocal, hclash⟩ := guards_legal_and_apart
  have hword (text : String) (h : text.toList.all Settings.isSymbolChar) :
      ∀ c ∈ text.toList, Settings.IsWordChar c := fun c hc =>
    (Settings.isSymbolChar_iff c).1 (List.all_eq_true.1 h c hc)
  have hmixed := hword "Mockuart" (by decide)
  have hlow := hword "Mock_uart" (by decide)
  have hupper := hword "MOCKUART" (by decide)
  refine ⟨hlocal _ _ "Mock_uart-v2.h" ?_ ?_, (hclash ⟨_⟩ ⟨_⟩ hmixed hupper).2 (by decide),
    mt (hclash ⟨_⟩ ⟨_⟩ hmixed hlow).1 (by decide)⟩
  · exact Path.fileName?_eq_some_iff.1 (by decide +kernel)
  · exact Path.fileName?_eq_some_iff.1 (by decide +kernel)

example : includeGuard "mocks/Mock_uart-v2.h" = "_MOCK_UART_V2_H" := by decide +kernel

end MockForge

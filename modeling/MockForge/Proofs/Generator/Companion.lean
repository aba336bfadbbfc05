import MockForge.Generator
import MockForge.Proofs.Path.Extension

/-!
# The header that a source includes

A generated source includes the header that goes by its own name. It gets to it by another way than
the header to its name: it takes the name at the end of its own path and changes the extension.
Main statement: `source_includes_header_iff`.
-/

namespace MockForge

namespace Path

variable {text : String} {c : Char}

/-- An extension is split off again, unless there is nothing before it: the dot is then one that the
name starts with. -/
theorem stem_extension (name : List Char) (hd : c ≠ '.') :
    stem (name ++ ['.', c]) = if name = [] then (['.', c], none) else (name, some [c]) := by
  rcases List.eq_nil_or_concat' name with rfl | ⟨front, last, rfl⟩ <;> simp [stem, hd]

/-- The name at the end of a text with an extension, with another extension. There is none for a
single dot after the last slash, which makes two dots with that of the extension. -/
theorem renamed?_extended (extension : String) (hs : c ≠ '/') (hd : c ≠ '.') :
    (extended text c).renamed? extension =
      if afterSlash text = [] then some (String.ofList ['.', c] ++ "." ++ extension)
      else if afterSlash text = ['.'] then none
      else some (String.ofList (afterSlash text) ++ "." ++ extension) := by
  obtain ⟨before, -, hpieces⟩ := pieces_extended text
  have hend : (pieces (extended text c).spelling.toList).getLast? =
      some (afterSlash text ++ ['.', c]) := by
    rw [hpieces c hs, List.getLast?_concat]
  rw [renamed?, fileName?_extended hs hd]
  dsimp only
  rw [String.toList_ofList, stem_extension _ hd, hend]
  by_cases hnil : afterSlash text = []
  · simp [hnil]
  · by_cases hdot : afterSlash text = ['.']
    · simp [hdot]
    · rw [if_neg hnil, if_neg hnil, if_neg hdot]
      split
      · next heq => exact absurd (Prod.mk.inj heq).1 hdot
      · next heq =>
        rw [(Prod.mk.inj heq).1]

end Path

namespace Generator

/-- The header that the source of a mock includes. -/
theorem companionHeader_sourceFile (name : MockName) :
    companionHeader name.sourceFile =
      if Path.afterSlash name.text = [] then ".c.h"
      else if Path.afterSlash name.text = ['.'] then name.text ++ ".c.h"
      else String.ofList (Path.afterSlash name.text) ++ ".h" := by
  have hsource : (⟨name.sourceFile⟩ : Path) = Path.extended name.text 'c' := rfl
  rw [companionHeader, hsource, Path.renamed?_extended "h" (by decide) (by decide)]
  split
  · rfl
  · split
    · rw [Option.getD_none, MockName.sourceFile, String.append_assoc]
      rfl
    · rw [Option.getD_some, String.append_assoc]
      rfl

/-- The header that the source includes is called like the one that is written, but for a name that
ends in a slash or in a dot of its own. -/
theorem companionHeader_eq_iff (name : MockName) :
    companionHeader name.sourceFile = String.ofList (Path.afterSlash name.text ++ ['.', 'h']) ↔
      Path.afterSlash name.text ≠ [] ∧ Path.afterSlash name.text ≠ ['.'] := by
  rw [companionHeader_sourceFile]
  by_cases hnil : Path.afterSlash name.text = []
  · simp [hnil]
  · rw [if_neg hnil]
    by_cases hdot : Path.afterSlash name.text = ['.']
    · rw [if_pos hdot, hdot]
      refine iff_of_false (fun h => ?_) (by simp)
      have hlength := congrArg (fun s : String => s.toList.length) h
      simp at hlength
    · rw [if_neg hdot, String.ofList_append]
      exact iff_of_true rfl ⟨hnil, hdot⟩

/-- The includes of a source end with the header that belongs to it. -/
theorem getLast?_sourcePreamble {g : Generator} {includes : String}
    (h : g.plugins.includes.outcome = .ok includes) (file : String) :
    (g.sourcePreamble file).fragments.getLast? =
      some ("#include \"" ++ companionHeader file ++ "\"\n\n") := by
  have hline : includeLine (companionHeader file) ++ "\n" =
      "#include \"" ++ companionHeader file ++ "\"\n\n" := by
    rw [includeLine, String.append_assoc]
    rfl
  have hemit : (Emission.ofRun g.plugins.includes >>= fun includes =>
      (Emission.emit [includes, includeLine (companionHeader file) ++ "\n"] :
        Emission Fault Unit)).fragments =
      [includes, includeLine (companionHeader file) ++ "\n"] :=
    Emission.fragments_bind_of_ok h _
  rw [sourcePreamble, Emission.fragments_bind_of_ok (a := ()) rfl, hemit, ← hline]
  rfl

/-- The includes of a source end with a line that names a header, and the path of the header of the
same mock ends in a name. The two are the same unless the name of the mock has nothing after its
last slash, or a single dot. -/
theorem source_includes_header_iff (g : Generator) (name : MockName) (includes : String)
    (h : g.plugins.includes.outcome = .ok includes) :
    ∃ file header,
      (g.sourcePreamble name.sourceFile).fragments.getLast? =
        some ("#include \"" ++ file ++ "\"\n\n") ∧
      (⟨name.headerFile⟩ : Path).components.getLast? = some (.name header) ∧
      (file = header ↔
        Path.afterSlash name.text ≠ [] ∧ Path.afterSlash name.text ≠ ['.']) := by
  have hheader : (Path.extended name.text 'h').components.getLast? =
      some (.name (String.ofList (Path.afterSlash name.text ++ ['.', 'h']))) :=
    Path.getLast?_components_extended (by decide) (by decide)
  exact ⟨_, _, getLast?_sourcePreamble h _, hheader, companionHeader_eq_iff name⟩

/-- What makes a mock in a directory of its own, with a dot in its name. -/
def versioned : Generator where
  context := ⟨⟨"uart.v2"⟩, ⟨"build/Mockuart.v2"⟩, "  ", "build/Mock", "", "unity.h"⟩

theorem versioned_header_included :
    (versioned.sourcePreamble "build/Mockuart.v2.c").fragments.getLast? =
      some "#include \"Mockuart.v2.h\"\n\n" ∧
    (⟨"build/Mockuart.v2.h"⟩ : Path).components.getLast? = some (.name "Mockuart.v2.h") := by
  obtain ⟨file, header, hfile, hheader, hiff⟩ :=
    source_includes_header_iff versioned ⟨"build/Mockuart.v2"⟩ "" rfl
  have hlast : (⟨"build/Mockuart.v2.h"⟩ : Path).components.getLast? =
      some (.name "Mockuart.v2.h") := by decide +kernel
  obtain rfl : header = "Mockuart.v2.h" := by
    simpa using hheader.symm.trans hlast
  obtain rfl : file = "Mockuart.v2.h" := hiff.2 (by decide +kernel)
  exact ⟨hfile, hlast⟩

end Generator

end MockForge

import MockForge.Proofs.FileSystem.Leading

/-!
# Names with an extension

A text gets an extension before anyone reads it as a path. Whatever the text is, the path then ends
in a name: what stands after the last slash, with the extension. What stands before that slash stays
as it is.
-/

namespace MockForge.Path

/-- The text starts with a slash, or two dots stand between slashes before its last one. -/
def LeadsOut (text : String) : Prop :=
  text.toList.head? = some '/' ∨ ['.', '.'] ∈ (text.toList.splitOn '/').dropLast

instance (text : String) : Decidable (LeadsOut text) := inferInstanceAs (Decidable (_ ∨ _))

/-- What stands after the last slash of a text. -/
def afterSlash (text : String) : List Char := text.toList.rtakeWhile (· ≠ '/')

/-- The path that is written like a text with an extension. -/
def extended (text : String) (c : Char) : Path := ⟨text ++ String.ofList ['.', c]⟩

variable {text : String} {c : Char}

theorem extension_ne_up (name : List Char) (hd : c ≠ '.') : name ++ ['.', c] ≠ ['.', '.'] := by
  intro h
  have hlast := congrArg List.getLast? h
  simp [hd] at hlast

/-- A piece with an extension is a name. -/
theorem ofPiece?_extension (name : List Char) (hd : c ≠ '.') :
    Component.ofPiece? (name ++ ['.', c]) = some (.name (String.ofList (name ++ ['.', c]))) := by
  have hidle : isIdle (name ++ ['.', c]) = false := by
    cases name <;> simp [isIdle]
  rw [Component.ofPiece?, if_neg (by simp [hidle]), if_neg (extension_ne_up name hd)]

/-- An extension only changes the last piece of a text. -/
theorem pieces_extended (text : String) :
    ∃ before, pieces text.toList = before ++ [afterSlash text] ∧
      ∀ c, c ≠ '/' →
        pieces (extended text c).spelling.toList = before ++ [afterSlash text ++ ['.', c]] := by
  obtain ⟨before, h⟩ := exists_pieces_append text.toList
  refine ⟨before, ?_, fun c hc => ?_⟩
  · have hb := h [] List.not_mem_nil
    rwa [List.append_nil, List.append_nil] at hb
  · rw [extended, String.toList_append, String.toList_ofList]
    exact h ['.', c] (by simp [Ne.symm hc])

/-- The trail of a text with an extension ends in a name, and only that depends on the extension. -/
theorem trail_extended (text : String) :
    ∃ front, ∀ c, c ≠ '/' → c ≠ '.' →
      (extended text c).trail =
        front ++ [.name (String.ofList (afterSlash text ++ ['.', c]))] := by
  obtain ⟨before, -, h⟩ := pieces_extended text
  refine ⟨before.filterMap Component.ofPiece?, fun c hs hd => ?_⟩
  rw [trail, h c hs, List.filterMap_append]
  simp [ofPiece?_extension _ hd]

theorem getLast?_components_extended (hs : c ≠ '/') (hd : c ≠ '.') :
    (extended text c).components.getLast? =
      some (.name (String.ofList (afterSlash text ++ ['.', c]))) := by
  obtain ⟨front, h⟩ := trail_extended text
  rw [components_eq, h c hs hd, ← List.append_assoc, List.getLast?_concat]

theorem fileName?_extended (hs : c ≠ '/') (hd : c ≠ '.') :
    (extended text c).fileName? = some (String.ofList (afterSlash text ++ ['.', c])) := by
  rw [fileName?, getLast?_components_extended hs hd]

theorem isNamed_extended (hs : c ≠ '/') (hd : c ≠ '.') : (extended text c).IsNamed := by
  obtain ⟨before, -, h⟩ := pieces_extended text
  exact ⟨before, _, _, h c hs, ofPiece?_extension _ hd⟩

theorem head?_extended :
    (extended text c).spelling.toList.head? = some '/' ↔ text.toList.head? = some '/' := by
  rw [extended, String.toList_append, String.toList_ofList]
  cases text.toList <;> simp

/-- With an extension a text only goes down, unless it leads out before its last slash. -/
theorem isDownward_extended_iff (hs : c ≠ '/') (hd : c ≠ '.') :
    (extended text c).IsDownward ↔ ¬LeadsOut text := by
  obtain ⟨before, hb, h⟩ := pieces_extended text
  have hup : ['.', '.'] ∈ pieces (extended text c).spelling.toList ↔
      ['.', '.'] ∈ (text.toList.splitOn '/').dropLast := by
    rw [h c hs, ← pieces_eq_splitOn, hb, List.dropLast_concat, List.mem_append,
      List.mem_singleton, or_iff_left (extension_ne_up _ hd).symm]
  rw [LeadsOut, not_or]
  exact ⟨fun hdown => ⟨mt head?_extended.2 hdown.plain, mt hup.2 hdown.noUp⟩,
    fun hout => ⟨mt head?_extended.1 hout.1, mt hup.1 hout.2⟩⟩

/-- A text has different steps with different extensions. -/
theorem steps_extended_ne {d : Char} (h : ¬LeadsOut text) (hs : c ≠ '/') (hd : c ≠ '.')
    (hs' : d ≠ '/') (hd' : d ≠ '.') (hne : c ≠ d) :
    (extended text c).steps ≠ (extended text d).steps := by
  obtain ⟨front, htrail⟩ := trail_extended text
  rw [steps_of_plain ((isDownward_extended_iff hs hd).2 h).plain,
    steps_of_plain ((isDownward_extended_iff hs' hd').2 h).plain, htrail c hs hd, htrail d hs' hd']
  simp [hne]

end MockForge.Path

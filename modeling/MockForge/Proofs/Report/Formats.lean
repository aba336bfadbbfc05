import MockForge.Proofs.Json.Layout
import MockForge.Report

/-!
# The formats of a report

All formats carry the same value. The text format and the JSON format are read back to it, and the
pretty format without colors differs from the JSON format only by the escapes that it leaves out.
Main statement: `formats_carry_value`.
-/

namespace MockForge.Report

open Json

/-! ## The pretty form -/

theorem prettyItems_eq_map (colored : Bool) (level : Nat) (items : List Value) :
    prettyItems colored level items = items.map (pretty colored level) := by
  induction items with
  | nil => rfl
  | cons item rest ih => rw [prettyItems, ih, List.map_cons]

theorem prettyMembers_eq_map (colored : Bool) (level : Nat) (members : List (String × Value)) :
    prettyMembers colored level members = members.map fun member =>
      '"' :: (Style.key.paint colored member.1.toList ++ '"' :: ':' :: ' ' ::
        pretty colored level member.2) := by
  induction members with
  | nil => rfl
  | cons member rest ih =>
      obtain ⟨key, value⟩ := member
      rw [prettyMembers, ih, List.map_cons]

/-! ## Texts without escapes -/

/-- The character stands in a literal as it is. -/
def IsPlainChar (c : Char) : Prop := c ≠ '"' ∧ c ≠ '\\' ∧ ¬c.toNat < 0x20

/-- No text and no key of a value has a character that needs an escape. -/
def NeedsNoEscape (value : Value) : Prop :=
  ∀ s, value.Holds s → ∀ c ∈ s.toList, IsPlainChar c

theorem needsNoEscape_text {s : String} :
    NeedsNoEscape (.text s) ↔ ∀ c ∈ s.toList, IsPlainChar c := by
  refine ⟨fun h => h s .text, fun h t ht => ?_⟩
  cases ht
  exact h

theorem needsNoEscape_list {items : List Value} :
    NeedsNoEscape (.list items) ↔ ∀ item ∈ items, NeedsNoEscape item := by
  refine ⟨fun h item hitem s hs => h s (.item hitem hs), fun h s hs => ?_⟩
  cases hs with
  | item hitem hs => exact h _ hitem s hs

theorem needsNoEscape_object {members : List (String × Value)} :
    NeedsNoEscape (.object members) ↔ ∀ member ∈ members,
      (∀ c ∈ member.1.toList, IsPlainChar c) ∧ NeedsNoEscape member.2 := by
  refine ⟨fun h member hmember => ⟨h _ (.key hmember), fun s hs => h s (.member hmember hs)⟩,
    fun h s hs => ?_⟩
  cases hs with
  | key hmember => exact (h _ hmember).1
  | member hmember hs => exact (h _ hmember).2 s hs

theorem escapedChar_of_plain {c : Char} (h : IsPlainChar c) : escapedChar c = [c] := by
  obtain ⟨hquote, hbackslash, hcontrol⟩ := h
  have hne {d : Char} (hd : d.toNat < 0x20) : c ≠ d := fun he => hcontrol (he ▸ hd)
  rw [escapedChar, if_neg hquote, if_neg hbackslash, if_neg (hne (by decide)),
    if_neg (hne (by decide)), if_neg (hne (by decide)), if_neg (hne (by decide)),
    if_neg (hne (by decide)), if_neg hcontrol]

theorem literal_of_plain {s : String} (h : ∀ c ∈ s.toList, IsPlainChar c) :
    literal s = '"' :: (s.toList ++ ['"']) := by
  have hchars : s.toList.map escapedChar = s.toList.map ([·]) :=
    List.map_congr_left fun c hc => escapedChar_of_plain (h c hc)
  rw [literal, List.flatMap_def, hchars, ← List.flatMap_def, List.flatMap_singleton']

/-- Where nothing needs an escape the pretty form is the indented one. -/
theorem pretty_eq_indented {value : Value} (h : NeedsNoEscape value) (level : Nat) :
    pretty false level value = value.indented level := by
  induction value using Value.nested generalizing level with
  | null => rfl
  | boolean value => rfl
  | number value => rfl
  | text value => exact (literal_of_plain (needsNoEscape_text.1 h)).symm
  | list items ih =>
      rw [pretty, Value.indented, prettyItems_eq_map, indentedItems_eq_map, List.map_congr_left]
      exact fun item hitem => ih item hitem (needsNoEscape_list.1 h item hitem) (level + 1)
  | object members ih =>
      rw [pretty, Value.indented, prettyMembers_eq_map, indentedMembers_eq_map,
        List.map_congr_left]
      intro member hmember
      obtain ⟨hkey, hvalue⟩ := needsNoEscape_object.1 h member hmember
      rw [ih member hmember hvalue, literal_of_plain hkey]
      simp [Style.paint]

/-! ## Texts with escapes -/

/-- An escape is longer than the character that it stands for. -/
theorem length_escapedChar (c : Char) :
    1 ≤ (escapedChar c).length ∧ ((escapedChar c).length = 1 → IsPlainChar c) := by
  rcases escapedChar_cases c with ⟨s, hs, hread⟩ | ⟨hs, hplain⟩
  · have hne : s ≠ [] := by
      rintro rfl
      cases hread []
    have hpos := List.length_pos_iff.2 hne
    rw [hs, List.length_cons]
    exact ⟨by omega, fun h => by omega⟩
  · rw [hs]
    exact ⟨Nat.le_refl 1, fun _ => hplain⟩

/-- A text is no longer than another one, and as long only under a condition. -/
structure Within (P : Prop) (s t : List Char) : Prop where
  le : s.length ≤ t.length
  tight : s.length = t.length → P

namespace Within

variable {ι : Type} {P Q : Prop} {s t u v : List Char}

theorem mono (h : Within P s t) (hp : P → Q) : Within Q s t := ⟨h.le, hp ∘ h.tight⟩

theorem refl (s : List Char) : Within True s s := ⟨Nat.le_refl _, fun _ => trivial⟩

theorem append (h : Within P s t) (h' : Within Q u v) : Within (P ∧ Q) (s ++ u) (t ++ v) := by
  have hle := h.le
  have hle' := h'.le
  refine ⟨by simp only [List.length_append]; omega, fun heq => ?_⟩
  simp only [List.length_append] at heq
  exact ⟨h.tight (by omega), h'.tight (by omega)⟩

/-- What both texts have in front and behind counts for nothing. -/
theorem between (h : Within P s t) (front back : List Char) :
    Within P (front ++ (s ++ back)) (front ++ (t ++ back)) :=
  ((refl front).append (h.append (refl back))).mono fun h => h.2.1

theorem flatMap {P : ι → Prop} {f g : ι → List Char} {is : List ι}
    (h : ∀ i ∈ is, Within (P i) (f i) (g i)) :
    Within (∀ i ∈ is, P i) (is.flatMap f) (is.flatMap g) := by
  induction is with
  | nil => exact (refl []).mono nofun
  | cons i is ih =>
      obtain ⟨hi, his⟩ := List.forall_mem_cons.1 h
      exact (hi.append (ih his)).mono List.forall_mem_cons.2

theorem joined {P : ι → Prop} {f g : ι → List Char} {is : List ι} (separator : List Char)
    (h : ∀ i ∈ is, Within (P i) (f i) (g i)) :
    Within (∀ i ∈ is, P i) (joined separator (is.map f)) (joined separator (is.map g)) := by
  cases is with
  | nil => exact (refl []).mono nofun
  | cons i is =>
      obtain ⟨hi, his⟩ := List.forall_mem_cons.1 h
      rw [List.map_cons, List.map_cons, joined_cons, joined_cons, List.flatMap_map,
        List.flatMap_map]
      have hrest := flatMap fun i hmem => ((his i hmem).between separator [])
      simp only [List.append_nil] at hrest
      exact (hi.append hrest).mono List.forall_mem_cons.2

theorem block {P : ι → Prop} {f g : ι → List Char} {is : List ι} (opening closing : Char)
    (level : Nat) (h : ∀ i ∈ is, Within (P i) (f i) (g i)) :
    Within (∀ i ∈ is, P i) (block opening closing level (is.map f))
      (block opening closing level (is.map g)) := by
  rw [block_eq, block_eq]
  have hlines := joined [','] fun i hmem =>
    (h i hmem).between ('\n' :: indentation (level + 1)) []
  simp only [List.append_nil, List.cons_append] at hlines
  exact hlines.between [opening] _

end Within

theorem within_literal (s : String) :
    Within (∀ c ∈ s.toList, IsPlainChar c) ('"' :: (s.toList ++ ['"'])) (literal s) := by
  have hchars : Within (∀ c ∈ s.toList, IsPlainChar c) (s.toList.flatMap ([·]))
      (s.toList.flatMap escapedChar) :=
    .flatMap fun c _ => ⟨(length_escapedChar c).1, fun h => (length_escapedChar c).2 h.symm⟩
  rw [List.flatMap_singleton'] at hchars
  exact hchars.between ['"'] ['"']

/-- The pretty form is no longer than the indented one, and as long only if nothing needs an
escape. -/
theorem within_indented (value : Value) (level : Nat) :
    Within (NeedsNoEscape value) (pretty false level value) (value.indented level) := by
  induction value using Value.nested generalizing level with
  | null => exact (Within.refl _).mono fun _ => nofun
  | boolean value => exact (Within.refl _).mono fun _ => nofun
  | number value => exact (Within.refl _).mono fun _ => nofun
  | text value => exact (within_literal value).mono needsNoEscape_text.2
  | list items ih =>
      rw [pretty, Value.indented, prettyItems_eq_map, indentedItems_eq_map]
      exact (Within.block '[' ']' level fun item hitem => ih item hitem (level + 1)).mono
        needsNoEscape_list.2
  | object members ih =>
      rw [pretty, Value.indented, prettyMembers_eq_map, indentedMembers_eq_map]
      refine (Within.block '{' '}' level fun member hmember => ?_).mono
        needsNoEscape_object.2
      have hgap := (ih member hmember (level + 1)).between [':', ' '] []
      have hmember := (within_literal member.1).append hgap
      simpa [Style.paint] using hmember

/-- The pretty form is the indented one just where nothing needs an escape. -/
theorem pretty_eq_indented_iff (value : Value) (level : Nat) :
    pretty false level value = value.indented level ↔ NeedsNoEscape value :=
  ⟨fun h => (within_indented value level).tight (congrArg List.length h),
    fun h => pretty_eq_indented h level⟩

/-! ## Formats -/

/-- The text format and the JSON format are read back to the value, and if the keys of its objects
are in order, the pretty format without colors is the JSON format if and only if no text and no key
holds a quote, a backslash or a control character. -/
theorem formats_carry_value (value : Value) (colored : Bool) :
    Value.ofText (print .text colored value) = .ok value ∧
    Value.ofText (print .json colored value) = .ok value ∧
    (value.IsOrdered → (print .pretty false value = print .json colored value ↔
      ∀ s, value.Holds s → ∀ c ∈ s.toList, c ≠ '"' ∧ c ≠ '\\' ∧ ¬c.toNat < 0x20)) := by
  refine ⟨ofText_compactText value, ofText_indentedText value, fun h => ?_⟩
  rw [print, print, h.sorted_eq, Value.indentedText, String.ofList_inj]
  exact pretty_eq_indented_iff value 0

/-- What a report says of a directory. -/
def directoryReport (directory : String) : Value :=
  .object [("dry_run", .boolean true), ("output_dir", .text directory)]

/-- A backslash sets the two formats apart, a slash does not. -/
theorem backslash_sets_formats_apart :
    (∀ directory, (directoryReport directory).IsOrdered) ∧
    Value.ofText (print .json false (directoryReport "out\\mocks")) =
      .ok (directoryReport "out\\mocks") ∧
    print .pretty false (directoryReport "out\\mocks") ≠
      print .json false (directoryReport "out\\mocks") ∧
    print .pretty false (directoryReport "out/mocks") =
      print .json false (directoryReport "out/mocks") := by
  have hkeys : ["dry_run", "output_dir"].Pairwise (· < ·) := by decide
  have hordered (directory : String) : (directoryReport directory).IsOrdered :=
    .object hkeys (List.forall_mem_cons.2
      ⟨.boolean true, List.forall_mem_singleton.2 (.text directory)⟩)
  have hmember (directory : String) : ("output_dir", Value.text directory) ∈
      [("dry_run", .boolean true), ("output_dir", .text directory)] := by simp
  obtain ⟨-, hjson, happart⟩ := formats_carry_value (directoryReport "out\\mocks") false
  obtain ⟨-, -, hequal⟩ := formats_carry_value (directoryReport "out/mocks") false
  refine ⟨hordered, hjson, fun h => ?_, (hequal (hordered _)).2 ?_⟩
  · have hplain := (happart (hordered _)).1 h _ (.member (hmember _) .text) '\\' (by simp)
    exact hplain.2.1 rfl
  · have hdry : ∀ c ∈ "dry_run".toList, IsPlainChar c := by simp [IsPlainChar]
    refine needsNoEscape_object.2 (List.forall_mem_cons.2
      ⟨⟨hdry, nofun⟩, List.forall_mem_singleton.2 ⟨?_, needsNoEscape_text.2 ?_⟩⟩)
    · simp [IsPlainChar]
    · simp [IsPlainChar]

end MockForge.Report

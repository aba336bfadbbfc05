import MockForge.Proofs.Report.Formats

/-!
# The colors of a report

Without its style sequences a colored report is the report without colors. The texts of a report may
hold sequences of their own, whole or cut off: a sequence that is cut off never becomes whole
through what is put around the text, since that starts with a character that no sequence goes on
with. Main statement: `colors_leave_text`.
-/

namespace MockForge

namespace Style

/-! ## Style sequences -/

/-- What follows the numbers of a sequence, if they end in an `m`. -/
def afterNumbers : List Char → Option (List Char)
  | [] => none
  | 'm' :: rest => some rest
  | c :: rest => if c.isDigit || c = ';' then afterNumbers rest else none

/-- What follows the sequence that a text starts with, if it starts with one. -/
def afterSequence : List Char → Option (List Char)
  | '\x1b' :: '[' :: rest => afterNumbers rest
  | _ => none

theorem afterNumbers_shortens {s r : List Char} (h : afterNumbers s = some r) :
    r.length < s.length := by
  fun_induction afterNumbers s with
  | case1 => cases h
  | case2 rest =>
      cases h
      exact Nat.lt_succ_self _
  | case3 c rest _ _ ih => exact Nat.lt_succ_of_lt (ih h)
  | case4 => cases h

theorem afterSequence_shortens {s r : List Char} (h : afterSequence s = some r) :
    r.length < s.length := by
  unfold afterSequence at h
  split at h
  · have hlt := afterNumbers_shortens h
    simp only [List.length_cons]
    omega
  · cases h

/-- A text without its sequences, which are removed from left to right. -/
def bare (s : List Char) : List Char :=
  match s with
  | [] => []
  | c :: rest =>
      match _h : afterSequence (c :: rest) with
      | some tail => bare tail
      | none => c :: bare rest
termination_by s.length
decreasing_by
  · exact afterSequence_shortens _h
  · exact Nat.lt_succ_self _

theorem bare_of_some {s tail : List Char} (h : afterSequence s = some tail) :
    bare s = bare tail := by
  cases s with
  | nil => cases h
  | cons c rest =>
      rw [bare]
      split
      · next h' =>
          rw [h] at h'
          cases h'
          rfl
      · next h' =>
          rw [h] at h'
          cases h'

theorem bare_of_none {c : Char} {rest : List Char} (h : afterSequence (c :: rest) = none) :
    bare (c :: rest) = c :: bare rest := by
  rw [bare]
  split
  · next h' =>
      rw [h] at h'
      cases h'
  · rfl

theorem afterSequence_of_ne {c : Char} (h : c ≠ '\x1b') (rest : List Char) :
    afterSequence (c :: rest) = none := by
  rw [afterSequence]
  intro tail heq
  cases heq
  exact h rfl

theorem afterSequence_escape {s : List Char} (h : s.head? ≠ some '[') :
    afterSequence ('\x1b' :: s) = none := by
  rw [afterSequence]
  intro rest heq
  cases heq
  exact h rfl

/-! ## What follows a text -/

/-- No sequence that a text breaks off goes on in what follows it. -/
def Breaks (s : List Char) : Prop :=
  ∀ c ∈ s.head?, c ≠ '[' ∧ c ≠ 'm' ∧ c ≠ ';' ∧ c.isDigit = false

theorem afterNumbers_append {r : List Char} (h : Breaks r) (s : List Char) :
    afterNumbers (s ++ r) = (afterNumbers s).map (· ++ r) := by
  induction s with
  | nil =>
      cases r with
      | nil => rfl
      | cons c rest =>
          obtain ⟨-, hend, hsemicolon, hdigit⟩ := h c rfl
          show afterNumbers (c :: rest) = none
          rw [afterNumbers, hdigit, decide_eq_false hsemicolon]
          · rfl
          · exact hend
  | cons c s ih =>
      by_cases hend : c = 'm'
      · subst hend
        rfl
      · rw [List.cons_append, afterNumbers, afterNumbers, ih]
        · split <;> rfl
        · exact hend
        · exact hend

theorem afterSequence_append {r : List Char} (h : Breaks r) (c : Char) (s : List Char) :
    afterSequence (c :: (s ++ r)) = (afterSequence (c :: s)).map (· ++ r) := by
  by_cases hescape : c = '\x1b'
  · subst hescape
    by_cases hbracket : s.head? = some '['
    · obtain ⟨rest, rfl⟩ := List.head?_eq_some_iff.1 hbracket
      exact afterNumbers_append h rest
    · have hafter : (s ++ r).head? ≠ some '[' := by
        cases s with
        | nil => exact fun hr => (h '[' hr).1 rfl
        | cons d s => exact hbracket
      rw [afterSequence_escape hbracket, afterSequence_escape hafter, Option.map_none]
  · rw [afterSequence_of_ne hescape, afterSequence_of_ne hescape, Option.map_none]

/-- Nothing is removed across the end of a text if what follows it breaks its sequences. -/
theorem bare_append {r : List Char} (h : Breaks r) (s : List Char) :
    bare (s ++ r) = bare s ++ bare r := by
  fun_induction bare s with
  | case1 => rfl
  | case2 c rest tail hc ih =>
      have happend : afterSequence (c :: (rest ++ r)) = some (tail ++ r) := by
        rw [afterSequence_append h, hc, Option.map_some]
      rw [List.cons_append, bare_of_some happend, ih]
  | case3 c rest hc ih =>
      have happend : afterSequence (c :: (rest ++ r)) = none := by
        rw [afterSequence_append h, hc, Option.map_none]
      rw [List.cons_append, bare_of_none happend, ih, List.cons_append]

example : bare "\x1b[1;31mred\x1b[0m \x1b[".toList = "red \x1b[".toList := by cbv

/-! ## Texts in a style -/

section Kept

variable (style : Style)

/-- A style comes back only after a whole sequence. -/
theorem kept_cons {c : Char} {s : List Char} (h : afterSequence (c :: s) = none) :
    kept style (c :: s) = c :: kept style s := by
  rw [kept]
  intro rest hc hs
  subst hc hs
  cases h

theorem kept_of_ne {c : Char} (h : c ≠ '\x1b') (s : List Char) :
    kept style (c :: s) = c :: kept style s :=
  kept_cons style (afterSequence_of_ne h s)

theorem head?_kept (s : List Char) : (kept style s).head? = s.head? := by
  fun_cases kept style s <;> rfl

theorem afterNumbers_kept (s : List Char) :
    afterNumbers (kept style s) = (afterNumbers s).map (kept style) := by
  induction s with
  | nil => rfl
  | cons c s ih =>
      by_cases hescape : c = '\x1b'
      · have hhead := head?_kept style (c :: s)
        obtain ⟨rest, hrest⟩ := List.head?_eq_some_iff.1 hhead
        rw [hrest, hescape]
        rfl
      · rw [kept_of_ne style hescape]
        by_cases hend : c = 'm'
        · subst hend
          rfl
        · rw [afterNumbers, afterNumbers, ih]
          · split <;> rfl
          · exact hend
          · exact hend

/-- What starts with no sequence starts with none when the style comes back in the rest. -/
theorem afterSequence_kept {c : Char} {s : List Char} (h : afterSequence (c :: s) = none) :
    afterSequence (c :: kept style s) = none := by
  by_cases hescape : c = '\x1b'
  · subst hescape
    by_cases hbracket : s.head? = some '['
    · obtain ⟨rest, rfl⟩ := List.head?_eq_some_iff.1 hbracket
      have hnumbers : afterNumbers rest = none := h
      rw [kept_of_ne style (by decide)]
      show afterNumbers (kept style rest) = none
      rw [afterNumbers_kept, hnumbers, Option.map_none]
    · rw [← head?_kept style s] at hbracket
      exact afterSequence_escape hbracket
  · exact afterSequence_of_ne hescape _

theorem afterSequence_eq_some {s tail : List Char} (h : afterSequence s = some tail) :
    ∃ rest, s = '\x1b' :: '[' :: rest ∧ afterNumbers rest = some tail := by
  unfold afterSequence at h
  split at h
  · next rest => exact ⟨rest, rfl, h⟩
  · cases h

theorem bare_opening (s : List Char) : bare (style.opening ++ s) = bare s := by
  apply bare_of_some
  cases style <;> rfl

theorem bare_ending (s : List Char) : bare (ending ++ s) = bare s :=
  bare_of_some rfl

/-- The style that comes back inside a text is removed with the other sequences. -/
theorem bare_kept (s : List Char) : bare (kept style s) = bare s := by
  fun_induction bare s with
  | case1 => rw [kept, bare]
  | case2 c rest tail hc ih =>
      obtain ⟨numbers, hrest, hnumbers⟩ := afterSequence_eq_some hc
      rw [hrest]
      by_cases hreset : ∃ after, numbers = '0' :: 'm' :: after
      · obtain ⟨after, rfl⟩ := hreset
        obtain rfl : after = tail := Option.some.inj hnumbers
        rw [kept, bare_of_some rfl, bare_opening, ih]
      · have hkept : kept style ('\x1b' :: '[' :: numbers) =
            '\x1b' :: '[' :: kept style numbers := by
          rw [kept, kept_of_ne style (by decide)]
          intro after _ h
          exact hreset ⟨after, (List.cons.inj h).2⟩
        have hafter : afterSequence ('\x1b' :: '[' :: kept style numbers) =
            some (kept style tail) := by
          show afterNumbers (kept style numbers) = some (kept style tail)
          rw [afterNumbers_kept, hnumbers, Option.map_some]
        rw [hkept, bare_of_some hafter, ih]
  | case3 c rest hc ih =>
      rw [kept_cons style hc, bare_of_none (afterSequence_kept style hc), ih]

end Kept

/-! ## What is left of a text -/

/-- Of a text without its sequences another one is left, whatever follows the two. -/
def Leaves (s t : List Char) : Prop := ∀ r, bare (s ++ r) = t ++ bare r

namespace Leaves

variable {ι : Type} {s t u v : List Char}

theorem nil : Leaves [] [] := fun _ => rfl

theorem append (h : Leaves s t) (h' : Leaves u v) : Leaves (s ++ u) (t ++ v) := by
  intro r
  rw [List.append_assoc, h, h', List.append_assoc]

theorem char {c : Char} (h : c ≠ '\x1b') : Leaves [c] [c] :=
  fun r => bare_of_none (afterSequence_of_ne h r)

/-- All of a text is left that holds no escape character. -/
theorem self (h : '\x1b' ∉ s) : Leaves s s := by
  induction s with
  | nil => exact nil
  | cons c s ih =>
      obtain ⟨hc, hs⟩ := List.ne_and_not_mem_of_not_mem_cons h
      exact (char hc.symm).append (ih hs)

theorem opening (style : Style) : Leaves style.opening [] := bare_opening style

theorem ending : Leaves Style.ending [] := bare_ending

theorem flatMap {f g : ι → List Char} {is : List ι} (h : ∀ i ∈ is, Leaves (f i) (g i)) :
    Leaves (is.flatMap f) (is.flatMap g) := by
  induction is with
  | nil => exact nil
  | cons i is ih =>
      obtain ⟨hi, his⟩ := List.forall_mem_cons.1 h
      exact hi.append (ih his)

theorem joined {f g : ι → List Char} {is : List ι} {separator : List Char}
    (hs : '\x1b' ∉ separator) (h : ∀ i ∈ is, Leaves (f i) (g i)) :
    Leaves (Json.joined separator (is.map f)) (Json.joined separator (is.map g)) := by
  cases is with
  | nil => exact nil
  | cons i is =>
      obtain ⟨hi, his⟩ := List.forall_mem_cons.1 h
      rw [List.map_cons, List.map_cons, Json.joined_cons, Json.joined_cons, List.flatMap_map,
        List.flatMap_map]
      exact hi.append (flatMap fun i hmem => (self hs).append (his i hmem))

theorem not_mem_indentation (level : Nat) : '\x1b' ∉ Json.indentation level := by
  simp [Json.indentation]

theorem block {f g : ι → List Char} {is : List ι} {first last : Char} (hf : first ≠ '\x1b')
    (hl : last ≠ '\x1b') (level : Nat) (h : ∀ i ∈ is, Leaves (f i) (g i)) :
    Leaves (Json.block first last level (is.map f)) (Json.block first last level (is.map g)) := by
  have hbreak (level : Nat) : Leaves ('\n' :: Json.indentation level)
      ('\n' :: Json.indentation level) :=
    (char (by decide)).append (self (not_mem_indentation level))
  have hinside : Leaves (Json.Layout.indented.inside level is.isEmpty).chars
      (Json.Layout.indented.inside level is.isEmpty).chars := by
    cases is with
    | nil => exact nil
    | cons i is => exact hbreak level
  rw [Json.block_eq, Json.block_eq]
  exact (char hf).append ((joined (by decide) fun i hmem => (hbreak (level + 1)).append
    (h i hmem)).append (hinside.append (char hl)))

/-- A text without sequences is left of what is painted with it. -/
theorem paint {s : List Char} (h : '\x1b' ∉ s) (colored : Bool) (style : Style) :
    Leaves (style.paint colored s) s := by
  cases colored with
  | false => exact self h
  | true =>
      have hkept : kept style s = s := by
        induction s with
        | nil => rfl
        | cons c s ih =>
            obtain ⟨hc, hs⟩ := List.ne_and_not_mem_of_not_mem_cons h
            rw [kept_of_ne style hc.symm, ih hs]
      have hpaint := ((opening style).append (self h)).append ending
      rw [List.nil_append, List.append_nil] at hpaint
      rw [Style.paint, if_pos rfl, hkept]
      exact hpaint

/-- A quote breaks the sequences of the text before it, and so does the sequence that ends a
style. -/
theorem paint_quote (colored : Bool) (style : Style) (s : List Char) :
    Leaves (style.paint colored s ++ ['"']) (bare s ++ ['"']) := by
  intro r
  have hquote : bare ('"' :: r) = '"' :: bare r := char (by decide) r
  have hbreaks : Breaks ('"' :: r) := by
    intro c hc
    cases hc
    decide
  cases colored with
  | false =>
      show bare (s ++ ['"'] ++ r) = _
      rw [List.append_assoc, List.singleton_append, bare_append hbreaks, hquote,
        List.append_assoc, List.singleton_append]
  | true =>
      have hending : Breaks (Style.ending ++ '"' :: r) := by
        intro c hc
        cases hc
        decide
      show bare (style.opening ++ kept style s ++ Style.ending ++ ['"'] ++ r) = _
      simp only [List.append_assoc, List.singleton_append]
      rw [bare_opening, bare_append hending, bare_kept, bare_ending, hquote]

end Leaves

end Style

namespace Json

/-! ## Values without sequences -/

mutual

/-- A value with all its texts and keys changed. -/
def Value.mapTexts (f : String → String) : Value → Value
  | .null => .null
  | .boolean value => .boolean value
  | .number value => .number value
  | .text value => .text (f value)
  | .list items => .list (mapItems f items)
  | .object members => .object (mapMembers f members)

/-- All items with their texts and keys changed. -/
def mapItems (f : String → String) : List Value → List Value
  | [] => []
  | item :: rest => item.mapTexts f :: mapItems f rest

/-- All members with their keys, and the texts and keys in their values, changed. -/
def mapMembers (f : String → String) : List (String × Value) → List (String × Value)
  | [] => []
  | (key, value) :: rest => (f key, value.mapTexts f) :: mapMembers f rest

end

variable {f : String → String}

theorem mapItems_eq_map (items : List Value) :
    mapItems f items = items.map (Value.mapTexts f) := by
  induction items with
  | nil => rfl
  | cons item rest ih => rw [mapItems, ih, List.map_cons]

theorem mapMembers_eq_map (members : List (String × Value)) :
    mapMembers f members = members.map fun member => (f member.1, member.2.mapTexts f) := by
  induction members with
  | nil => rfl
  | cons member rest ih =>
      obtain ⟨key, value⟩ := member
      rw [mapMembers, ih, List.map_cons]

/-- Nothing changes where no text and no key changes. -/
theorem Value.mapTexts_eq_self {value : Value} (h : ∀ s, value.Holds s → f s = s) :
    value.mapTexts f = value := by
  induction value using Value.nested with
  | null => rfl
  | boolean value => rfl
  | number value => rfl
  | text value => rw [mapTexts, h value .text]
  | list items ih =>
      have hitems := List.map_congr_left (g := id) fun item hitem =>
        ih item hitem fun s hs => h s (.item hitem hs)
      rw [mapTexts, mapItems_eq_map, hitems, List.map_id]
  | object members ih =>
      have hmembers := List.map_congr_left (g := id) (l := members)
        (f := fun member => (f member.1, member.2.mapTexts f)) fun member hmember => by
          rw [h member.1 (.key hmember), ih member hmember fun s hs => h s (.member hmember hs)]
          rfl
      rw [mapTexts, mapMembers_eq_map, hmembers, List.map_id]

end Json

namespace Report

open Json Style

/-- A text without its style sequences. -/
def unstyled (s : String) : String := String.ofList (bare s.toList)

theorem unstyled_eq_self {s : String} (h : '\x1b' ∉ s.toList) : unstyled s = s := by
  have hleaves := Leaves.self h []
  rw [List.append_nil, bare, List.append_nil] at hleaves
  rw [unstyled, hleaves, String.ofList_toList]

theorem toList_unstyled (s : String) : (unstyled s).toList = bare s.toList :=
  String.toList_ofList

theorem not_mem_integerText (n : Int) : '\x1b' ∉ integerText n := by
  have hdigits := List.all_eq_true.1 (Numeral.ofInt n).whole.all_isDigit
  rw [← Numeral.chars_ofInt, Numeral.chars, List.mem_append, List.mem_append]
  rintro (hsign | hwhole | htail)
  · split at hsign <;> simp at hsign
  · exact absurd (hdigits _ hwhole) (by decide)
  · cases htail

/-- Of the pretty form the plain pretty form of the value without sequences is left, in colors or
not. -/
theorem leaves_pretty (colored : Bool) (value : Value) (level : Nat) :
    Leaves (pretty colored level value) (pretty false level (value.mapTexts unstyled)) := by
  have hquote : Leaves ['"'] ['"'] := .char (by decide)
  induction value using Value.nested generalizing level with
  | null => exact .paint (by decide) colored .null
  | boolean value => exact .paint (by cases value <;> decide) colored .boolean
  | number value => exact .paint (not_mem_integerText value) colored .number
  | text value =>
      have htext := hquote.append (.paint_quote colored .text value.toList)
      rw [← toList_unstyled] at htext
      exact htext
  | list items ih =>
      rw [Value.mapTexts, pretty, pretty, prettyItems_eq_map, prettyItems_eq_map, mapItems_eq_map,
        List.map_map]
      exact .block (by decide) (by decide) level fun item hitem => ih item hitem (level + 1)
  | object members ih =>
      rw [Value.mapTexts, pretty, pretty, prettyMembers_eq_map, prettyMembers_eq_map,
        mapMembers_eq_map, List.map_map]
      refine .block (by decide) (by decide) level fun member hmember => ?_
      have hgap : Leaves [':', ' '] [':', ' '] := .self (by decide)
      have hkey := hquote.append (.paint_quote colored .key member.1.toList)
      have hmember := hkey.append (hgap.append (ih member hmember (level + 1)))
      rw [← toList_unstyled] at hmember
      simpa [Style.paint] using hmember

/-! ## Reports -/

theorem unstyled_print (colored : Bool) (value : Value) :
    unstyled (print .pretty colored value) =
      String.ofList (pretty false 0 (value.sorted.mapTexts unstyled)) := by
  have hleaves := leaves_pretty colored value.sorted 0 []
  rw [List.append_nil] at hleaves
  rw [unstyled, print, String.toList_ofList, hleaves, bare, List.append_nil]

/-- Colors change a report by style sequences alone. With them removed it is the report without
colors, with the sequences bare that its texts hold, and that is the report without colors itself
if no text and no key holds an escape character. -/
theorem colors_leave_text (value : Value) :
    unstyled (print .pretty true value) = unstyled (print .pretty false value) ∧
    ((∀ s, value.Holds s → '\x1b' ∉ s.toList) →
      unstyled (print .pretty true value) = print .pretty false value) := by
  refine ⟨by rw [unstyled_print, unstyled_print], fun h => ?_⟩
  have hsorted : value.sorted.mapTexts unstyled = value.sorted :=
    Value.mapTexts_eq_self fun s hs => unstyled_eq_self (h s hs.of_sorted)
  rw [unstyled_print, hsorted, print]

/-- A sequence that a directory breaks off does not go on in the colors. -/
theorem directory_report_keeps_text :
    unstyled (print .pretty true (directoryReport "out\x1b[3")) =
      unstyled (print .pretty false (directoryReport "out\x1b[3")) ∧
    unstyled (print .pretty true (directoryReport "out/mocks")) =
      print .pretty false (directoryReport "out/mocks") := by
  refine ⟨(colors_leave_text _).1, (colors_leave_text _).2 fun s hs => ?_⟩
  have hkeys : ["dry_run", "output_dir"].all (!·.toList.contains '\x1b') = true := by decide
  cases hs with
  | key hmem =>
      have hkey := List.all_eq_true.1 hkeys s (List.mem_map_of_mem (f := Prod.fst) hmem)
      simpa using hkey
  | member hmem h =>
      rcases List.mem_cons.1 hmem with heq | hrest
      · cases heq
        cases h
      · cases List.mem_singleton.1 hrest
        cases h
        decide

end Report

end MockForge

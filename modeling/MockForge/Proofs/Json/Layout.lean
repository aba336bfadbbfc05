import Mathlib.Tactic.SplitIfs
import MockForge.Proofs.Json.Document
import MockForge.Proofs.Json.Values

/-!
# What is printed is read back

Both printers write a well-formed document that stands for the value, and differ only in the blanks
they leave. Main statements: `ofText_compactText` and `ofText_indentedText`.
-/

namespace MockForge.Json

/-! ## Numbers -/

theorem digitChar_ne_zero {d : Nat} (hd : 0 < d) (h : d < 10) : Nat.digitChar d ≠ '0' := by
  have hall : ∀ d < 10, 0 < d → Nat.digitChar d ≠ '0' := by decide
  exact hall d h hd

/-- No zero stands before other digits. -/
theorem toDigits_leading {n : Nat} (h : 0 < n) : (Nat.toDigits 10 n).head? ≠ some '0' := by
  induction n using Nat.strongRecOn with
  | ind n ih =>
      rw [Nat.toDigits_eq_if (by decide)]
      split
      · next hsmall => simpa using digitChar_ne_zero h hsmall
      · next hlarge =>
        have hhead := ih (n / 10) (by omega) (by omega)
        obtain ⟨c, rest, hcons⟩ :=
          List.exists_cons_of_ne_nil (Nat.toDigits_ne_nil (n := n / 10) (b := 10))
        rw [hcons] at hhead ⊢
        exact hhead

theorem toDigits_cases (n : Nat) :
    Nat.toDigits 10 n = ['0'] ∨ (Nat.toDigits 10 n).head? ≠ some '0' := by
  rcases Nat.eq_zero_or_pos n with rfl | hn
  · exact .inl (Nat.toDigits_zero 10)
  · exact .inr (toDigits_leading hn)

/-- The numeral of an integer. -/
def Numeral.ofInt (n : Int) : Numeral where
  negative := decide (n < 0)
  whole := ⟨Nat.toDigits 10 n.natAbs, Nat.toDigits_ne_nil,
    List.all_eq_true.2 fun _ => Nat.isDigit_of_mem_toDigits (by decide) (by decide)⟩
  fraction := none
  exponent := none
  leading := toDigits_cases n.natAbs

theorem Numeral.chars_ofInt (n : Int) : (Numeral.ofInt n).chars = integerText n := by
  have htext : toString n = if 0 ≤ n then n.toNat.repr else "-" ++ (-n).toNat.repr :=
    Int.repr_eq_if
  rw [integerText, htext, chars, ofInt]
  by_cases hn : 0 ≤ n
  · have habs : n.natAbs = n.toNat := by omega
    simp [hn, habs, tail, Nat.repr_eq_ofList_toDigits]
  · have habs : n.natAbs = (-n).toNat := by omega
    simp [hn, Int.not_le.1 hn, habs, tail, Nat.repr_eq_ofList_toDigits]

theorem Numeral.integer?_ofInt (n : Int) : (Numeral.ofInt n).integer? = some n := by
  have hdigits : Nat.ofDigitChars 10 (Numeral.ofInt n).whole.chars 0 = n.natAbs :=
    Nat.ofDigitChars_ten_toDigits
  have htail : (Numeral.ofInt n).tail = [] := rfl
  have hsign : (Numeral.ofInt n).negative = decide (n < 0) := rfl
  rw [integer?, if_pos htail, hdigits, hsign]
  dsimp only
  by_cases hn : n < 0
  · have hne : n.natAbs ≠ 0 := by omega
    have hminus : ¬(!true) = true := Bool.false_ne_true
    rw [decide_eq_true hn, if_neg hminus, if_neg hne]
    exact congrArg some (by omega)
  · rw [decide_eq_false hn, if_pos Bool.not_false]
    exact congrArg some (by omega)

/-! ## Text literals -/

theorem hexValue?_zero : hexValue? '0' = some 0 := rfl

/-- The piece that stands for a character. -/
def Piece.ofChar (c : Char) : Piece :=
  if hquote : c = '"' then .escape .quote
  else if hbackslash : c = '\\' then .escape .backslash
  else if c = '\x08' then .escape .backspace
  else if c = '\x0c' then .escape .formFeed
  else if c = '\n' then .escape .newline
  else if c = '\r' then .escape .carriageReturn
  else if c = '\t' then .escape .tab
  else if hcontrol : c.toNat < 0x20 then
    .unit ⟨'0', 0, hexValue?_zero⟩ ⟨'0', 0, hexValue?_zero⟩
      ⟨_, c.toNat / 16, hexValue?_digitChar _ (by omega)⟩
      ⟨_, c.toNat % 16, hexValue?_digitChar _ (by omega)⟩
  else .plain c ⟨hquote, hbackslash, hcontrol⟩

theorem Piece.chars_ofChar (c : Char) : (Piece.ofChar c).chars = escapedChar c := by
  unfold ofChar escapedChar
  split_ifs <;> rfl

/-- A control character is no half of a surrogate pair. -/
theorem decoded_control {a b d e : HexDigit} {c : Char} (h : unitValue a b d e = c.toNat)
    (hc : c.toNat < 0x20) (rest : List Piece) :
    decoded (.unit a b d e :: rest) = (decoded rest).map (c :: ·) := by
  have hlow : isLowSurrogate c.toNat = false := by simp [isLowSurrogate]; omega
  have hhigh : isHighSurrogate c.toNat = false := by simp [isHighSurrogate]; omega
  rw [decoded.eq_def]
  simp [h, hlow, hhigh]

theorem decoded_ofChar (c : Char) (rest : List Piece) :
    decoded (Piece.ofChar c :: rest) = (decoded rest).map (c :: ·) := by
  unfold Piece.ofChar
  split_ifs with _ _ _ _ _ _ _ hcontrol
  any_goals subst_vars; rfl
  apply decoded_control _ hcontrol
  dsimp only [unitValue]
  omega

/-- The literal of a text. -/
def Literal.ofString (s : String) : Literal := ⟨s.toList.map Piece.ofChar⟩

theorem Literal.chars_ofString (s : String) : (Literal.ofString s).chars = literal s := by
  simp [chars, tail, ofString, literal, List.flatMap_map, Piece.chars_ofChar]

theorem Literal.text?_ofString (s : String) : (Literal.ofString s).text? = some s := by
  have hdecoded (cs : List Char) : decoded (cs.map Piece.ofChar) = some cs := by
    induction cs with
    | nil => rfl
    | cons c rest ih => rw [List.map_cons, decoded_ofChar, ih, Option.map_some]
  rw [text?, ofString, hdecoded, Option.map_some, String.ofList_toList]

/-! ## Layouts -/

theorem all_isSpace_nil : [].all isSpace = true := rfl

/-- No blank. -/
def Blank.empty : Blank := ⟨[], all_isSpace_nil⟩

@[simp]
theorem Blank.chars_empty : Blank.empty.chars = [] := rfl

/-- The blanks that a printer leaves. -/
structure Layout where
  /-- What stands before an item or a member of the given level, and before a closing bracket. -/
  line : Nat → Blank
  /-- What stands between a colon and its value. -/
  gap : Blank

namespace Layout

/-- No blanks at all. -/
def compact : Layout := ⟨fun _ => .empty, .empty⟩

theorem all_isSpace_space : [' '].all isSpace = true := rfl

theorem all_isSpace_newline (level : Nat) : ('\n' :: indentation level).all isSpace = true := by
  simp [indentation, isSpace]

/-- Every item and every closing bracket on a line of its own. -/
def indented : Layout :=
  ⟨fun level => ⟨'\n' :: indentation level, all_isSpace_newline level⟩, ⟨[' '], all_isSpace_space⟩⟩

/-- What stands before the closing bracket of a list or an object. -/
def inside (layout : Layout) (level : Nat) (empty : Bool) : Blank :=
  if empty then .empty else layout.line level

end Layout

mutual

/-- The spelling of a value that stands at the given level of a layout. -/
def Value.spelled (layout : Layout) (level : Nat) : Value → Spelling
  | .null => .null
  | .boolean value => .boolean value
  | .number value => .number (.ofInt value)
  | .text value => .text (.ofString value)
  | .list items =>
      .list (spelledItems layout (level + 1) items) (layout.inside level items.isEmpty)
  | .object members =>
      .object (spelledMembers layout (level + 1) members) (layout.inside level members.isEmpty)

/-- The items of a list with their blanks. -/
def spelledItems (layout : Layout) (level : Nat) : List Value → List (Item Spelling)
  | [] => []
  | item :: rest =>
      ⟨layout.line level, item.spelled layout level, .empty⟩ :: spelledItems layout level rest

/-- The members of an object with their blanks. -/
def spelledMembers (layout : Layout) (level : Nat) :
    List (String × Value) → List (Member Spelling)
  | [] => []
  | (key, value) :: rest =>
      ⟨layout.line level, .ofString key, .empty, layout.gap, value.spelled layout level, .empty⟩ ::
        spelledMembers layout level rest

end

section Spelled

variable (layout : Layout) (level : Nat)

theorem spelledItems_eq_map (items : List Value) :
    spelledItems layout level items = items.map fun item =>
      ⟨layout.line level, item.spelled layout level, .empty⟩ := by
  induction items with
  | nil => rfl
  | cons item rest ih => rw [spelledItems, ih, List.map_cons]

theorem spelledMembers_eq_map (members : List (String × Value)) :
    spelledMembers layout level members = members.map fun member =>
      ⟨layout.line level, .ofString member.1, .empty, layout.gap, member.2.spelled layout level,
        .empty⟩ := by
  induction members with
  | nil => rfl
  | cons member rest ih =>
      obtain ⟨key, value⟩ := member
      rw [spelledMembers, ih, List.map_cons]

/-- How an item is written in a layout. -/
def itemText (item : Value) : List Char :=
  (layout.line level).chars ++ (item.spelled layout level).chars

/-- How a member is written in a layout. -/
def memberText (member : String × Value) : List Char :=
  (layout.line level).chars ++ (literal member.1 ++
    ':' :: (layout.gap.chars ++ (member.2.spelled layout level).chars))

theorem itemTexts_spelled (items : List Value) :
    itemTexts (spelledItems layout level items) = items.map (itemText layout level) := by
  induction items with
  | nil => rfl
  | cons item rest ih => simp [spelledItems, itemTexts, ih, itemText]

theorem memberTexts_spelled (members : List (String × Value)) :
    memberTexts (spelledMembers layout level members) =
      members.map (memberText layout level) := by
  induction members with
  | nil => rfl
  | cons member rest ih =>
      simp [spelledMembers, memberTexts, ih, memberText, Literal.chars_ofString]

end Spelled

/-! ## What the printers write -/

theorem chars_compact (value : Value) (level : Nat) :
    (value.spelled .compact level).chars = value.compact := by
  induction value using Value.nested generalizing level with
  | null => rfl
  | boolean value => rfl
  | number value => exact Numeral.chars_ofInt value
  | text value => exact Literal.chars_ofString value
  | list items ih =>
      have htexts : items.map (itemText .compact (level + 1)) = items.map Value.compact :=
        List.map_congr_left fun item hitem => ih item hitem (level + 1)
      rw [Value.spelled, Spelling.chars, itemTexts_spelled, htexts, Value.compact,
        compactItems_eq_map]
      simp [Layout.inside, Layout.compact]
  | object members ih =>
      have htexts : members.map (memberText .compact (level + 1)) =
          members.map Record.memberText :=
        List.map_congr_left fun member hmember =>
          congrArg (literal member.1 ++ ':' :: ·) (ih member hmember (level + 1))
      rw [Value.spelled, Spelling.chars, memberTexts_spelled, htexts, Value.compact,
        Record.compactMembers_eq_map]
      simp [Layout.inside, Layout.compact]

/-- A line break before each line is one before the first and one in each separator. -/
theorem joined_newline (line : List Char) (lines : List (List Char)) :
    joined [','] ((line :: lines).map ('\n' :: ·)) =
      '\n' :: joined [',', '\n'] (line :: lines) := by
  rw [List.map_cons, joined_cons, joined_cons, List.flatMap_map]
  rfl

/-- A block is written with a line break before each line and before the closing bracket. -/
theorem block_eq {ι : Type} (opening closing : Char) (level : Nat) (text : ι → List Char)
    (is : List ι) :
    block opening closing level (is.map text) =
      opening :: (joined [','] (is.map fun i => '\n' :: (indentation (level + 1) ++ text i)) ++
        ((Layout.indented.inside level is.isEmpty).chars ++ [closing])) := by
  cases is with
  | nil => rfl
  | cons i is =>
      have hlines := joined_newline (indentation (level + 1) ++ text i)
        (is.map fun i => indentation (level + 1) ++ text i)
      simp only [List.map_cons, List.map_map, Function.comp_def] at hlines ⊢
      rw [hlines]
      simp [block, Layout.inside, Layout.indented, Function.comp_def]

theorem chars_indented (value : Value) (level : Nat) :
    (value.spelled .indented level).chars = value.indented level := by
  induction value using Value.nested generalizing level with
  | null => rfl
  | boolean value => rfl
  | number value => exact Numeral.chars_ofInt value
  | text value => exact Literal.chars_ofString value
  | list items ih =>
      have htexts : items.map (itemText .indented (level + 1)) = items.map fun item =>
          '\n' :: (indentation (level + 1) ++ item.indented (level + 1)) :=
        List.map_congr_left fun item hitem => by
          rw [itemText, ih item hitem (level + 1)]
          rfl
      rw [Value.spelled, Spelling.chars, itemTexts_spelled, htexts, Value.indented,
        indentedItems_eq_map, block_eq]
  | object members ih =>
      have htexts : members.map (memberText .indented (level + 1)) = members.map fun member =>
          '\n' :: (indentation (level + 1) ++
            (literal member.1 ++ ':' :: ' ' :: member.2.indented (level + 1))) :=
        List.map_congr_left fun member hmember => by
          rw [memberText, ih member hmember (level + 1)]
          rfl
      rw [Value.spelled, Spelling.chars, memberTexts_spelled, htexts, Value.indented,
        indentedMembers_eq_map, block_eq]

/-! ## What is read back -/

theorem mapM_eq_some {α β : Type} {f : α → Option β} {g : β → α} {is : List β}
    (h : ∀ i ∈ is, f (g i) = some i) : (is.map g).mapM f = some is := by
  induction is with
  | nil => rfl
  | cons i is ih =>
      obtain ⟨hi, his⟩ := List.forall_mem_cons.1 h
      simp [hi, ih his]

theorem length_le_joined (separator : List Char) {text : List Char} {texts : List (List Char)}
    (h : text ∈ texts) : text.length ≤ (joined separator texts).length := by
  cases texts with
  | nil => cases h
  | cons first rest =>
      rw [joined_cons, List.length_append]
      rcases List.mem_cons.1 h with rfl | hrest
      · exact Nat.le_add_right _ _
      · have hsub : (separator ++ text).Sublist (rest.flatMap (separator ++ ·)) :=
          List.sublist_flatten_of_mem (List.mem_map_of_mem hrest)
        have hlength := hsub.length_le
        rw [List.length_append] at hlength
        omega

section Depth

variable {layout : Layout} {level : Nat}

theorem length_item_lt {items : List Value} {item : Value} (h : item ∈ items) :
    (item.spelled layout (level + 1)).chars.length <
      ((Value.list items).spelled layout level).chars.length := by
  have hitem := length_le_joined [',']
    (List.mem_map_of_mem (f := itemText layout (level + 1)) h)
  rw [itemText, List.length_append] at hitem
  simp only [Value.spelled, Spelling.chars, itemTexts_spelled, List.length_cons, List.length_append]
  omega

theorem length_member_lt {members : List (String × Value)} {member : String × Value}
    (h : member ∈ members) :
    (member.2.spelled layout (level + 1)).chars.length <
      ((Value.object members).spelled layout level).chars.length := by
  have hmember := length_le_joined [',']
    (List.mem_map_of_mem (f := memberText layout (level + 1)) h)
  simp only [memberText, List.length_append, List.length_cons] at hmember
  simp only [Value.spelled, Spelling.chars, memberTexts_spelled, List.length_cons,
    List.length_append]
  omega

end Depth

theorem Spelling.length_pos (spelling : Spelling) : 0 < spelling.chars.length := by
  obtain ⟨c, tail, hchars, -⟩ := spelling.chars_eq_cons
  rw [hchars]
  exact Nat.succ_pos _

/-- A spelling stands for its value, and is nested no deeper than it is long. -/
theorem value?_spelled (layout : Layout) (value : Value) (level : Nat) {depth : Nat}
    (h : (value.spelled layout level).chars.length ≤ depth) :
    (value.spelled layout level).value? depth = some value := by
  induction depth generalizing value level with
  | zero => exact absurd (Spelling.length_pos _) (Nat.not_lt.2 h)
  | succ depth ih =>
      cases value with
      | null => rfl
      | boolean value => rfl
      | number value => simp [Value.spelled, Spelling.value?, Numeral.integer?_ofInt]
      | text value => simp [Value.spelled, Spelling.value?, Literal.text?_ofString]
      | list items =>
          rw [Value.spelled, Spelling.value?, Spelling.list?, spelledItems_eq_map, mapM_eq_some,
            Option.map_some]
          intro item hitem
          have hdepth := Nat.lt_of_lt_of_le (length_item_lt hitem) h
          exact ih item (level + 1) (Nat.le_of_lt_succ hdepth)
      | object members =>
          rw [Value.spelled, Spelling.value?, Spelling.object?, spelledMembers_eq_map,
            mapM_eq_some, Option.map_some]
          intro member hmember
          have hdepth := Nat.lt_of_lt_of_le (length_member_lt hmember) h
          have hvalue := ih member.2 (level + 1) (Nat.le_of_lt_succ hdepth)
          rw [Member.view?, Literal.text?_ofString, hvalue]
          rfl

/-- Whatever the layout, the characters of a value are read as the value. -/
theorem ofText_spelled (layout : Layout) (value : Value) :
    Value.ofText (String.ofList (value.spelled layout 0).chars) = .ok value := by
  have htext : Item.text { value := value.spelled layout 0 } =
      String.ofList (value.spelled layout 0).chars := by simp [Item.text]
  have hread := ofText_toOption { value := value.spelled layout 0 }
  rw [htext, value?_spelled layout value 0 (by simp)] at hread
  exact toOption_eq_some_iff.1 hread

theorem ofText_compactText (value : Value) : Value.ofText value.compactText = .ok value := by
  rw [Value.compactText, ← chars_compact value 0]
  exact ofText_spelled .compact value

theorem ofText_indentedText (value : Value) : Value.ofText value.indentedText = .ok value := by
  rw [Value.indentedText, ← chars_indented value 0]
  exact ofText_spelled .indented value

end MockForge.Json

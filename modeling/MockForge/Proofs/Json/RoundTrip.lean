import MockForge.Json.Printer
import MockForge.Json.Reader

/-!
# Reading what was printed

A reader reads a text when it takes exactly this text off the front of whatever starts with it. The
readers of texts, lists and records read the compact forms of their values.
-/

namespace MockForge.Json

/-! ## Text literals -/

theorem hexValue?_digitChar : ∀ d < 16, hexValue? (Nat.digitChar d) = some d := by decide

theorem four_le_byteLength (a b c d : Char) (rest : List Char) :
    4 ≤ byteLength ((a :: b :: c :: d :: rest).take 4) := by
  have ha := a.utf8Size_pos
  have hb := b.utf8Size_pos
  have hc := c.utf8Size_pos
  have hd := d.utf8Size_pos
  simp only [byteLength, List.take_succ_cons, List.take_zero, List.foldr_cons, List.foldr_nil]
  omega

/-- The numbered escape of a control character. -/
theorem unescape_control {c : Char} (hc : c.toNat < 0x20) (rest : List Char) :
    unescape ('u' :: '0' :: '0' :: Nat.digitChar (c.toNat / 16) :: Nat.digitChar (c.toNat % 16) ::
      rest) = .ok (c, rest) := by
  have h1 := hexValue?_digitChar (c.toNat / 16) (by omega)
  have h2 := hexValue?_digitChar (c.toNat % 16) (by omega)
  have h0 : hexValue? '0' = some 0 := by decide
  have hsum : ((0 * 16 + 0) * 16 + c.toNat / 16) * 16 + c.toNat % 16 = c.toNat := by omega
  have hunit : hexUnit ('0' :: '0' :: Nat.digitChar (c.toNat / 16) ::
      Nat.digitChar (c.toNat % 16) :: rest) = .ok (c.toNat, rest) := by
    rw [hexUnit, if_neg (Nat.not_lt.2 (four_le_byteLength _ _ _ _ rest))]
    simp only [h0, h1, h2, hsum]
  have hlow : isLowSurrogate c.toNat = false := by simp [isLowSurrogate]; omega
  have hhigh : isHighSurrogate c.toNat = false := by simp [isHighSurrogate]; omega
  simp only [unescape, hunit, hlow, hhigh, Char.ofNat_toNat, Bool.false_eq_true, if_false]

/-- A character stands in a literal behind a backslash or as it is. -/
theorem escapedChar_cases (c : Char) :
    (∃ s, escapedChar c = '\\' :: s ∧ ∀ rest, unescape (s ++ rest) = .ok (c, rest)) ∨
      (escapedChar c = [c] ∧ c ≠ '"' ∧ c ≠ '\\' ∧ ¬c.toNat < 0x20) := by
  unfold escapedChar
  by_cases hquote : c = '"'
  · rw [if_pos hquote, hquote]
    exact .inl ⟨['"'], rfl, fun rest => rfl⟩
  rw [if_neg hquote]
  by_cases hbackslash : c = '\\'
  · rw [if_pos hbackslash, hbackslash]
    exact .inl ⟨['\\'], rfl, fun rest => rfl⟩
  rw [if_neg hbackslash]
  split
  · next h => exact .inl ⟨['b'], rfl, fun rest => by rw [h]; rfl⟩
  split
  · next h => exact .inl ⟨['f'], rfl, fun rest => by rw [h]; rfl⟩
  split
  · next h => exact .inl ⟨['n'], rfl, fun rest => by rw [h]; rfl⟩
  split
  · next h => exact .inl ⟨['r'], rfl, fun rest => by rw [h]; rfl⟩
  split
  · next h => exact .inl ⟨['t'], rfl, fun rest => by rw [h]; rfl⟩
  split
  · next h => exact .inl ⟨_, rfl, unescape_control h⟩
  · next h => exact .inr ⟨rfl, hquote, hbackslash, h⟩

/-- A character is read back from its form in a literal. -/
theorem literalTail_escapedChar (c : Char) (rest : List Char) :
    literalTail (escapedChar c ++ rest) = (literalTail rest).map fun p => (c :: p.1, p.2) := by
  rcases escapedChar_cases c with ⟨s, hs, hu⟩ | ⟨hs, hquote, hbackslash, hcontrol⟩
  · rw [hs, List.cons_append, literalTail]
    split
    · next h =>
      rw [hu rest] at h
      simp at h
    · next h =>
      rw [hu rest] at h
      cases h
      cases literalTail rest <;> rfl
  · rw [hs, List.cons_append, List.nil_append, literalTail, if_neg hcontrol]
    · cases literalTail rest <;> rfl
    · exact hquote
    · exact hbackslash

theorem literalTail_flatMap (cs rest : List Char) :
    literalTail (cs.flatMap escapedChar ++ '"' :: rest) = .ok (cs, rest) := by
  induction cs with
  | nil =>
      show literalTail ('"' :: rest) = _
      rw [literalTail]
  | cons c cs ih =>
      rw [List.flatMap_cons, List.append_assoc, literalTail_escapedChar, ih]
      rfl

/-! ## Readers -/

variable {α σ ι : Type}

/-- A reader takes a text off the front and gives a value for it. The text starts neither with a
blank nor with the end of a list. -/
structure Reads (reader : Reader Fault α) (text : List Char) (a : α) : Prop where
  run : ∀ rest, reader.run (text ++ rest) = .ok (a, rest)
  opens : ∃ c tail, text = c :: tail ∧ isSpace c = false ∧ c ≠ ']'

theorem skipSpace_of_not_isSpace {c : Char} (h : isSpace c = false) (rest : List Char) :
    skipSpace (c :: rest) = c :: rest := by
  rw [skipSpace, List.dropWhile_cons, h]
  rfl

theorem Reads.map {β : Type} {reader : Reader Fault α} {text : List Char} {a : α}
    (h : Reads reader text a) (f : α → β) : Reads (reader.map f) text (f a) where
  run rest := by
    show (reader.run (text ++ rest)).map _ = _
    rw [h.run rest]
    rfl
  opens := h.opens

theorem reads_text (s : String) : Reads Json.text (literal s) s where
  run rest := by
    have hspace := skipSpace_of_not_isSpace (c := '"') (by decide)
    simp only [Json.text, literal, List.cons_append, List.append_assoc, hspace,
      literalTail_flatMap, List.nil_append]
    simp [Except.map]
  opens := ⟨'"', _, rfl, by decide, by decide⟩

theorem reads_optionalText (s : String) : Reads optionalText (literal s) (some s) where
  run rest := by
    have hspace := skipSpace_of_not_isSpace (c := '"') (by decide)
    have htext := ((reads_text s).map some).run rest
    rw [literal, List.cons_append] at htext ⊢
    simp only [optionalText, hspace]
    exact htext
  opens := (reads_text s).opens

/-! ## Lists -/

theorem compactItems_eq_map (items : List Value) :
    compactItems items = items.map Value.compact := by
  induction items with
  | nil => rfl
  | cons item rest ih => rw [compactItems, ih, List.map_cons]

theorem joined_cons (separator text : List Char) (texts : List (List Char)) :
    joined separator (text :: texts) = text ++ texts.flatMap (separator ++ ·) := by
  induction texts generalizing text with
  | nil => simp [joined]
  | cons next rest ih =>
      rw [joined, ih, List.flatMap_cons, List.append_assoc, List.append_assoc]
      exact List.cons_ne_nil _ _

section Lists

variable {item : Reader Fault α} {encode : ι → Value} {decode : ι → α} {first : Bool}
variable {s r tail : List Char} {a : α}

theorem items_end (h : nextItem first s = .ok (false, r)) :
    items item first s = .ok ([], r) := by
  rw [items]
  split
  · next h1 =>
    rw [h] at h1
    cases h1
  · next h1 =>
    rw [h] at h1
    cases h1
    rfl
  · next h1 =>
    rw [h] at h1
    cases h1

theorem items_next (h : nextItem first s = .ok (true, r)) (hr : item.run r = .ok (a, tail)) :
    items item first s = (items item false tail).map fun p => (a :: p.1, p.2) := by
  rw [items]
  split
  · next h1 =>
    rw [h] at h1
    cases h1
  · next h1 =>
    rw [h] at h1
    cases h1
  · next h1 =>
    rw [h] at h1
    cases h1
    split
    · next h2 =>
      rw [hr] at h2
      cases h2
    · next h2 =>
      rw [hr] at h2
      cases h2
      cases items item false tail <;> rfl

/-- The first item stands at once. -/
theorem nextItem_first {text : List Char} (h : Reads item text a) (rest : List Char) :
    nextItem true (text ++ rest) = .ok (true, text ++ rest) := by
  obtain ⟨c, tail, rfl, hspace, hend⟩ := h.opens
  rw [nextItem, List.cons_append, skipSpace_of_not_isSpace hspace]
  simp [hend]

/-- Every other item stands after a comma. -/
theorem nextItem_comma {text : List Char} (h : Reads item text a) (rest : List Char) :
    nextItem false ([','] ++ (text ++ rest)) = .ok (true, text ++ rest) := by
  obtain ⟨c, tail, rfl, hspace, hend⟩ := h.opens
  rw [List.singleton_append, nextItem, skipSpace_of_not_isSpace (by decide), List.cons_append]
  simp [skipSpace_of_not_isSpace hspace, hend]

/-- The items after the first one. -/
theorem items_of_not_first {is : List ι}
    (h : ∀ i ∈ is, Reads item (encode i).compact (decode i)) (rest : List Char) :
    items item false ((is.map fun i => (encode i).compact).flatMap ([','] ++ ·) ++ ']' :: rest) =
      .ok (is.map decode, ']' :: rest) := by
  induction is with
  | nil => exact items_end rfl
  | cons i is ih =>
      obtain ⟨hi, his⟩ := List.forall_mem_cons.1 h
      rw [List.map_cons, List.flatMap_cons, List.append_assoc, List.append_assoc]
      rw [items_next (nextItem_comma hi _) (hi.run _), ih his]
      rfl

theorem reads_list {is : List ι} (h : ∀ i ∈ is, Reads item (encode i).compact (decode i)) :
    Reads (list item) (Value.list (is.map encode)).compact (is.map decode) where
  run rest := by
    have hitems : items item true (joined [','] (is.map fun i => (encode i).compact) ++
        ']' :: rest) = .ok (is.map decode, ']' :: rest) := by
      cases is with
      | nil => exact items_end rfl
      | cons i is =>
          obtain ⟨hi, his⟩ := List.forall_mem_cons.1 h
          rw [List.map_cons, joined_cons, List.append_assoc]
          rw [items_next (nextItem_first hi _) (hi.run _), items_of_not_first his]
          rfl
    have hspace := skipSpace_of_not_isSpace (c := '[') (by decide)
    have hend : listEnd (']' :: rest) = .ok rest := rfl
    simp only [list, Value.compact, compactItems_eq_map, List.map_map, Function.comp_def,
      List.cons_append, List.append_assoc, List.nil_append, hspace, hitems, hend]
    rfl
  opens := ⟨'[', _, rfl, by decide, by decide⟩

end Lists

/-! ## Records -/

namespace Record

/-- The compact form of a member. -/
def memberText (m : String × Value) : List Char := literal m.1 ++ ':' :: m.2.compact

theorem memberText_append (key : String) (value : Value) (rest : List Char) :
    memberText (key, value) ++ rest = literal key ++ ':' :: (value.compact ++ rest) := by
  simp [memberText]

theorem compactMembers_eq_map (members : List (String × Value)) :
    compactMembers members = members.map memberText := by
  induction members with
  | nil => rfl
  | cons m rest ih =>
      obtain ⟨key, value⟩ := m
      rw [compactMembers, ih, List.map_cons]
      rfl

/-- Members of an object take a draft to another draft. -/
inductive Fills (record : Record σ α) : σ → List (String × Value) → σ → Prop where
  | nil (draft) : Fills record draft [] draft
  | cons {draft middle last key value rest} :
      (∀ tail, record.member key draft (':' :: (value.compact ++ tail)) = .ok (middle, tail)) →
      Fills record middle rest last → Fills record draft ((key, value) :: rest) last

variable {record : Record σ α} {draft middle last : σ}

theorem Fills.append {members more : List (String × Value)} (h : Fills record draft members middle)
    (hm : Fills record middle more last) : Fills record draft (members ++ more) last := by
  induction h with
  | nil => exact hm
  | cons hmember _ ih => exact .cons hmember (ih hm)

/-- A field that is read for the first time. -/
theorem fills_field {key : String} {field : Field σ} {value : Value}
    (hf : record.fields.find? (·.key = key) = some field) (hd : field.filled draft = false)
    (hv : Reads (field.fill draft) value.compact last) :
    Fills record draft [(key, value)] last := by
  refine .cons (fun tail => ?_) (.nil last)
  have hcolon (rest : List Char) : colon (':' :: rest) = .ok rest := rfl
  rw [member, hf]
  simp only [hd, hcolon, hv.run]
  rfl

/-- A text for a field that is read for the first time. -/
theorem fills_text {key : String} {field : Field σ} (put : String → σ)
    (hf : record.fields.find? (·.key = key) = some field) (hd : field.filled draft = false)
    (hv : field.fill draft = Json.text.map put) (s : String) :
    Fills record draft [(key, .text s)] (put s) := by
  apply fills_field hf hd
  rw [hv]
  exact (reads_text s).map put

/-- A member that may be missing, where the draft takes it as `put` says. -/
theorem fills_optional {key : String} {field : Field σ} (put : Option (Option String) → σ)
    (hf : record.fields.find? (·.key = key) = some field)
    (hd : field.filled (put none) = false)
    (hv : field.fill (put none) = optionalText.map fun v => put (some v))
    (value : Option String) :
    Fills record (put none) (optionalMember key value) (put (value.map some)) := by
  cases value with
  | none => exact .nil (put none)
  | some s =>
      apply fills_field hf hd
      rw [hv]
      exact (reads_optionalText s).map fun v => put (some v)

theorem literal_eq (key : String) (rest : List Char) :
    literal key ++ rest = '"' :: (key.toList.flatMap escapedChar ++ '"' :: rest) := by
  simp [literal]

theorem nextKey_first (key : String) (rest : List Char) :
    nextKey true (literal key ++ rest) = .ok (some key, rest) := by
  rw [literal_eq, nextKey, skipSpace_of_not_isSpace (by decide)]
  simp [literalTail_flatMap, Except.map]

theorem nextKey_comma (key : String) (rest : List Char) :
    nextKey false ([','] ++ (literal key ++ rest)) = .ok (some key, rest) := by
  rw [List.singleton_append, literal_eq, nextKey, skipSpace_of_not_isSpace (by decide)]
  simp [skipSpace_of_not_isSpace, isSpace, literalTail_flatMap, Except.map]

theorem members_end (draft : σ) (first : Bool) (rest : List Char) :
    record.members draft first ('}' :: rest) = .ok (draft, rest) := by
  rw [members]
  split
  · next h => cases h
  · next h =>
    cases h
    rfl
  · next h => cases h

theorem members_next {first : Bool} {s r tail : List Char} {key : String}
    (h : nextKey first s = .ok (some key, r))
    (hm : record.member key draft r = .ok (middle, tail)) :
    record.members draft first s = record.members middle false tail := by
  rw [members]
  split
  · next h1 =>
    rw [h] at h1
    cases h1
  · next h1 =>
    rw [h] at h1
    cases h1
  · next h1 =>
    rw [h] at h1
    cases h1
    split
    · next h2 =>
      rw [hm] at h2
      cases h2
    · next h2 =>
      rw [hm] at h2
      cases h2
      rfl

/-- The members after the first one. -/
theorem members_of_not_first {ms : List (String × Value)} (h : Fills record draft ms last)
    (rest : List Char) :
    record.members draft false ((ms.map memberText).flatMap ([','] ++ ·) ++ '}' :: rest) =
      .ok (last, rest) := by
  induction h with
  | nil draft => exact members_end draft false rest
  | cons hmember _ ih =>
      rw [List.map_cons, List.flatMap_cons, List.append_assoc, List.append_assoc,
        memberText_append]
      rw [members_next (nextKey_comma _ _) (hmember _), ih]

theorem reads_object {ms : List (String × Value)} {a : α} (h : Fills record record.blank ms last)
    (hf : record.finish last = .ok a) : Reads record.reader (Value.object ms).compact a where
  run rest := by
    have hmembers : record.members record.blank true
        (joined [','] (ms.map memberText) ++ '}' :: rest) = .ok (last, rest) := by
      cases h with
      | nil => exact members_end _ true rest
      | cons hmember hrest =>
          rw [List.map_cons, joined_cons, List.append_assoc, memberText_append]
          rw [members_next (nextKey_first _ _) (hmember _), members_of_not_first hrest]
    have hspace := skipSpace_of_not_isSpace (c := '{') (by decide)
    simp only [reader, Value.compact, compactMembers_eq_map, List.cons_append, List.append_assoc,
      List.nil_append, hspace, hmembers, finished, hf]
  opens := ⟨'{', _, rfl, by decide, by decide⟩

end Record

/-! ## Documents -/

theorem document_of_reads {reader : Reader Fault α} {value : Value} {a : α}
    (h : Reads reader value.compact a) : document reader value.compactText = .ok a := by
  have hrun := h.run []
  rw [List.append_nil] at hrun
  rw [document, Value.compactText, String.toList_ofList, hrun]
  rfl

end MockForge.Json

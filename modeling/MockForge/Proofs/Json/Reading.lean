import MockForge.Proofs.Json.Skipping

/-!
# What readers make of well-formed values

A reader views values as a function says when it takes any one value off the front of a text and
gives what the function gives for it, or fails where the function gives nothing. From the views of
its fields follows what a record reads from the members of an object or the items of a list.
-/

namespace MockForge.Json

variable {α β σ ε : Type}

/-! ## Successes -/

@[simp]
theorem toOption_ok (a : α) : (Except.ok a : Except ε α).toOption = some a := rfl

@[simp]
theorem toOption_error (e : ε) : (Except.error e : Except ε α).toOption = none := rfl

@[simp]
theorem toOption_map (f : α → β) (x : Except ε α) : (x.map f).toOption = x.toOption.map f := by
  cases x <;> rfl

theorem toOption_eq_some_iff {x : Except ε α} {a : α} : x.toOption = some a ↔ x = .ok a := by
  cases x <;> simp

/-! ## Text literals -/

theorem literalTail_plain {c : Char} (h : c ≠ '"' ∧ c ≠ '\\' ∧ ¬c.toNat < 0x20) (s : List Char) :
    (literalTail (c :: s)).toOption = (literalTail s).toOption.map fun p => (c :: p.1, p.2) := by
  rw [literalTail, if_neg h.2.2]
  · cases literalTail s <;> rfl
  · exact h.1
  · exact h.2.1

theorem literalTail_backslash (s : List Char) :
    (literalTail ('\\' :: s)).toOption = (unescape s).toOption.bind fun p =>
      (literalTail p.2).toOption.map fun q => (p.1 :: q.1, q.2) := by
  rw [literalTail]
  split
  · next h => simp [h]
  · next c tail h =>
    rw [h]
    cases hr : literalTail tail <;> simp [hr]

theorem unescape_letter (e : Escape) (s : List Char) :
    unescape (e.letter :: s) = .ok (e.char, s) := by
  cases e <;> rfl

theorem unescape_unit (a b c d : HexDigit) (s : List Char) :
    unescape ('u' :: a.char :: b.char :: c.char :: d.char :: s) =
      if isLowSurrogate (unitValue a b c d) then .error .malformed
      else if isHighSurrogate (unitValue a b c d) then pairedEscape (unitValue a b c d) s
      else .ok (Char.ofNat (unitValue a b c d), s) := by
  rw [unescape, hexUnit_chars]

theorem pairedEscape_unit (high : Nat) (a b c d : HexDigit) (s : List Char) :
    pairedEscape high ('\\' :: 'u' :: a.char :: b.char :: c.char :: d.char :: s) =
      if isLowSurrogate (unitValue a b c d) then .ok (pairedChar high (unitValue a b c d), s)
      else .error .malformed := by
  rw [pairedEscape, hexUnit_chars]

/-- The second half of a surrogate pair is nothing but a numbered escape. -/
theorem pairedEscape_of_not_unit (high : Nat) {pieces : List Piece}
    (h : ∀ a b c d rest, pieces = .unit a b c d :: rest → False) (s : List Char) :
    (pairedEscape high (pieces.flatMap Piece.chars ++ '"' :: s)).toOption = none := by
  cases pieces with
  | nil => rfl
  | cons piece rest =>
      cases piece with
      | plain c hc => simp [Piece.chars, pairedEscape, hc]
      | escape e => cases e <;> rfl
      | unit a b c d => exact (h a b c d rest rfl).elim

/-- The pieces of a literal are read as the characters that they stand for. -/
theorem literalTail_pieces (pieces : List Piece) (s : List Char) :
    (literalTail (pieces.flatMap Piece.chars ++ '"' :: s)).toOption =
      (decoded pieces).map (·, s) := by
  -- A surrogate pair is two pieces, so the induction is on `decoded` and not on the list.
  fun_induction decoded pieces with
  | case1 =>
      show (literalTail ('"' :: s)).toOption = _
      rw [literalTail]
      rfl
  | case2 c h rest ih => simp [Piece.chars, literalTail_plain h, ih, Function.comp_def]
  | case3 e rest ih =>
      simp [Piece.chars, literalTail_backslash, unescape_letter, ih, Function.comp_def]
  | case4 a b c d rest n hlow =>
      simp [Piece.chars, literalTail_backslash, unescape_unit, n, hlow]
  | case5 a b c d n hlow hhigh a' b' c' d' rest low hpaired ih =>
      simp [Piece.chars, literalTail_backslash, unescape_unit, n, low, hlow, hhigh,
        pairedEscape_unit, hpaired, ih, Function.comp_def]
  | case6 a b c d n hlow hhigh a' b' c' d' rest low hpaired =>
      simp [Piece.chars, literalTail_backslash, unescape_unit, n, low, hlow, hhigh,
        pairedEscape_unit, hpaired]
  | case7 a b c d rest n hlow hhigh hrest =>
      simp [Piece.chars, literalTail_backslash, unescape_unit, n, hlow, hhigh,
        pairedEscape_of_not_unit n hrest]
  | case8 a b c d rest n hlow hhigh ih =>
      simp [Piece.chars, literalTail_backslash, unescape_unit, n, hlow, hhigh, ih,
        Function.comp_def]

theorem literalTail_tail (literal : Literal) (s : List Char) :
    ((literalTail (literal.tail ++ s)).map fun p => (String.ofList p.1, p.2)).toOption =
      literal.text?.map (·, s) := by
  simp [Literal.tail, Literal.text?, literalTail_pieces, Function.comp_def]

/-! ## Views -/

/-- A reader takes any one value off the front of a text, with the blanks before it, and gives what
the view gives for it. Where the view gives nothing, it fails. -/
def Views (reader : Reader Fault α) (view : Spelling → Option α) : Prop :=
  ∀ (before : Blank) (value : Spelling) {rest : List Char}, Follows rest →
    (reader.run (before.chars ++ (value.chars ++ rest))).toOption = (view value).map (·, rest)

theorem Views.run {reader : Reader Fault α} {view : Spelling → Option α} (h : Views reader view)
    (value : Spelling) {rest : List Char} (hrest : Follows rest) :
    (reader.run (value.chars ++ rest)).toOption = (view value).map (·, rest) :=
  h {} value hrest

theorem Views.map {reader : Reader Fault α} {view : Spelling → Option α} (h : Views reader view)
    (f : α → β) : Views (reader.map f) fun value => (view value).map f := by
  intro before value rest hrest
  have hrun := h before value hrest
  simp [Reader.map, hrun, Function.comp_def]

/-- The text that a value is. -/
def Spelling.text? : Spelling → Option String
  | .text literal => literal.text?
  | _ => none

/-- The text that a value is, or nothing for `null`. -/
def Spelling.optionalText? : Spelling → Option (Option String)
  | .null => some none
  | value => value.text?.map some

/-- The items of a value that is a list, each as the view gives it. -/
def Spelling.list? (view : Spelling → Option α) : Spelling → Option (List α)
  | .list items _ => items.mapM fun item => view item.value
  | _ => none

section Forms

variable {value : Spelling} {c : Char}

theorem Spelling.Opens.text (h : value.Opens '"') : ∃ literal, value = .text literal := by
  cases value with
  | text literal => exact ⟨literal, rfl⟩
  | _ => simp [Opens] at h

theorem Spelling.Opens.null (h : value.Opens 'n') : value = .null := by
  cases value with
  | null => rfl
  | _ => simp [Opens] at h

theorem Spelling.Opens.list (h : value.Opens '[') : ∃ items inside, value = .list items inside := by
  cases value with
  | list items inside => exact ⟨items, inside, rfl⟩
  | _ => simp [Opens] at h

theorem Spelling.Opens.text?_eq_none (h : value.Opens c) (hc : c ≠ '"') : value.text? = none := by
  cases value with
  | text literal => exact absurd h hc
  | _ => rfl

theorem Spelling.Opens.optionalText?_eq (h : value.Opens c) (hc : c ≠ 'n') :
    value.optionalText? = value.text?.map some := by
  cases value with
  | null => exact absurd h hc
  | _ => rfl

theorem Spelling.Opens.list?_eq_none {view : Spelling → Option α} (h : value.Opens c)
    (hc : c ≠ '[') : value.list? view = none := by
  cases value with
  | list items inside => exact absurd h hc
  | _ => rfl

end Forms

theorem views_text : Views text Spelling.text? := by
  intro before value rest hrest
  obtain ⟨c, tail, hchars, hopens⟩ := value.chars_eq_cons
  by_cases hc : c = '"'
  · obtain ⟨literal, rfl⟩ := (hc ▸ hopens).text
    have hquote := skipSpace_of_not_isSpace (c := '"') (by decide)
    simp [text, Spelling.chars, Literal.chars, hquote, Spelling.text?, ← literalTail_tail]
  · have hspace := skipSpace_of_not_isSpace hopens.not_isSpace
    simp [text, hchars, hspace, hc, hopens.text?_eq_none hc]

theorem views_optionalText : Views optionalText Spelling.optionalText? := by
  intro before value rest hrest
  obtain ⟨c, tail, hchars, hopens⟩ := value.chars_eq_cons
  by_cases hc : c = 'n'
  · cases (hc ▸ hopens).null
    have hn := skipSpace_of_not_isSpace (c := 'n') (by decide)
    have hword : skipWord ['u', 'l', 'l'] ('u' :: 'l' :: 'l' :: rest) = .ok rest := rfl
    simp [optionalText, Spelling.chars, hn, hword, Spelling.optionalText?]
  · have htext := views_text.map some before value hrest
    have hspace := skipSpace_of_not_isSpace hopens.not_isSpace
    rw [hopens.optionalText?_eq hc, ← htext]
    simp [optionalText, hchars, hspace, hc]

/-! ## Lists -/

section Lists

variable {item : Reader Fault α} {view : Spelling → Option α}

theorem items_toOption {first : Bool} {s r : List Char} (h : nextItem first s = .ok (true, r)) :
    (items item first s).toOption = (item.run r).toOption.bind fun p =>
      (items item false p.2).toOption.map fun q => (p.1 :: q.1, q.2) := by
  cases hr : item.run r with
  | ok p => simp [items_next h hr]
  | error fault =>
      rw [items]
      split
      · rfl
      · next h1 =>
        rw [h] at h1
        cases h1
      · next h1 =>
        rw [h] at h1
        cases h1
        split <;> simp_all

theorem nextItem_value (before : Blank) (value : Spelling) (s : List Char) :
    nextItem true (before.chars ++ (value.chars ++ s)) = .ok (true, value.chars ++ s) := by
  obtain ⟨c, tail, hchars, hopens⟩ := value.chars_eq_cons
  have hspace := skipSpace_of_not_isSpace hopens.not_isSpace
  have hend : c ≠ ']' := hopens.ne (by decide)
  simp [nextItem, hchars, hspace, hend]

theorem nextItem_comma_value (after before : Blank) (value : Spelling) (s : List Char) :
    nextItem false (after.chars ++ ',' :: (before.chars ++ (value.chars ++ s))) =
      .ok (true, value.chars ++ s) := by
  obtain ⟨c, tail, hchars, hopens⟩ := value.chars_eq_cons
  have hspace := skipSpace_of_not_isSpace hopens.not_isSpace
  have hcomma := skipSpace_of_not_isSpace (c := ',') (by decide)
  have hend : c ≠ ']' := hopens.ne (by decide)
  simp [nextItem, hchars, hspace, hcomma, hend]

theorem nextItem_end (first : Bool) (after inside : Blank) (s : List Char) :
    nextItem first (after.chars ++ itemsTail [] inside s) = .ok (false, ']' :: s) := by
  have hend := skipSpace_of_not_isSpace (c := ']') (by decide)
  simp [nextItem, itemsTail, itemTexts, hend]

/-- An item and all that follow it are read as their views say. -/
theorem items_value (h : Views item view) {first : Bool} {s t : List Char} {i : Item Spelling}
    {rest : List (Item Spelling)} {inside : Blank}
    (hnext : nextItem first s =
      .ok (true, i.value.chars ++ (i.after.chars ++ itemsTail rest inside t)))
    (hrest : (items item false (i.after.chars ++ itemsTail rest inside t)).toOption =
      (rest.mapM fun item => view item.value).map (·, ']' :: t)) :
    (items item first s).toOption =
      ((i :: rest).mapM fun item => view item.value).map (·, ']' :: t) := by
  rw [items_toOption hnext, h.run i.value ((follows_itemsTail rest inside t).blank i.after),
    List.mapM_cons]
  cases view i.value with
  | none => rfl
  | some a => cases hviews : rest.mapM fun item => view item.value <;> simp [hrest, hviews]

/-- The items after the first one. -/
theorem items_tail (h : Views item view) (rest : List (Item Spelling)) (after inside : Blank)
    (s : List Char) :
    (items item false (after.chars ++ itemsTail rest inside s)).toOption =
      (rest.mapM fun item => view item.value).map (·, ']' :: s) := by
  induction rest generalizing after with
  | nil => simp [items_end (nextItem_end false after inside s)]
  | cons i rest ih =>
      rw [itemsTail_cons]
      exact items_value h (nextItem_comma_value after i.before i.value _) (ih i.after)

/-- All items of a list. -/
theorem items_chars (h : Views item view) (is : List (Item Spelling)) (inside : Blank)
    (s : List Char) :
    ∃ r, (Spelling.list is inside).chars ++ s = '[' :: r ∧ (items item true r).toOption =
      (is.mapM fun item => view item.value).map (·, ']' :: s) := by
  cases is with
  | nil =>
      refine ⟨_, chars_list_nil inside s, ?_⟩
      have hend : nextItem true (inside.chars ++ ']' :: s) = .ok (false, ']' :: s) :=
        nextItem_end true {} inside s
      simp [items_end hend]
  | cons i is =>
      refine ⟨_, chars_list_cons i is inside s, ?_⟩
      exact items_value h (nextItem_value i.before i.value _) (items_tail h is i.after inside s)

theorem list_toOption (before : Blank) (r : List Char) :
    ((list item).run (before.chars ++ '[' :: r)).toOption =
      (items item true r).toOption.bind fun p => (listEnd p.2).toOption.map (p.1, ·) := by
  have hbracket := skipSpace_of_not_isSpace (c := '[') (by decide) r
  cases hread : items item true r <;> simp [list, hbracket, hread]

theorem views_list (h : Views item view) : Views (list item) (Spelling.list? view) := by
  intro before value rest hrest
  obtain ⟨c, tail, hchars, hopens⟩ := value.chars_eq_cons
  by_cases hc : c = '['
  · obtain ⟨is, inside, rfl⟩ := (hc ▸ hopens).list
    obtain ⟨r, hr, hitems⟩ := items_chars h is inside rest
    have hend : listEnd (']' :: rest) = .ok rest := rfl
    rw [hr, list_toOption before r, hitems, Spelling.list?]
    cases is.mapM fun item => view item.value <;> simp [hend]
  · have hspace := skipSpace_of_not_isSpace hopens.not_isSpace
    simp [list, hchars, hspace, hc, hopens.list?_eq_none hc]

end Lists

/-! ## Records -/

namespace Record

/-! ### Members of an object -/

theorem nextKey_key (before : Blank) (key : Literal) (s : List Char) :
    (nextKey true (before.chars ++ (key.chars ++ s))).toOption =
      key.text?.map fun text => (some text, s) := by
  have hquote := skipSpace_of_not_isSpace (c := '"') (by decide)
  simp [nextKey, Literal.chars, Literal.tail, Literal.text?, hquote, literalTail_pieces,
    Function.comp_def]

theorem nextKey_comma_key (after before : Blank) (key : Literal) (s : List Char) :
    (nextKey false (after.chars ++ ',' :: (before.chars ++ (key.chars ++ s)))).toOption =
      key.text?.map fun text => (some text, s) := by
  have hquote := skipSpace_of_not_isSpace (c := '"') (by decide)
  have hcomma := skipSpace_of_not_isSpace (c := ',') (by decide)
  simp [nextKey, Literal.chars, Literal.tail, Literal.text?, hquote, hcomma, literalTail_pieces,
    Function.comp_def]

theorem nextKey_end (first : Bool) (after inside : Blank) (s : List Char) :
    nextKey first (after.chars ++ membersTail [] inside s) = .ok (none, s) := by
  have hend := skipSpace_of_not_isSpace (c := '}') (by decide)
  simp [nextKey, membersTail, memberTexts, hend]

theorem colon_blank (after : Blank) (s : List Char) :
    colon (after.chars ++ ':' :: s) = .ok s := by
  have hcolon := skipSpace_of_not_isSpace (c := ':') (by decide)
  simp [colon, hcolon]

variable {record : Record σ α} {view : String → σ → Spelling → Option σ}

/-- What a member does to a draft. The view says what each field makes of a value. -/
def take (record : Record σ α) (view : String → σ → Spelling → Option σ) (draft : σ)
    (entry : String × Spelling) : Option σ :=
  match record.fields.find? (·.key = entry.1) with
  | some field => if field.filled draft then none else view field.key draft entry.2
  | none => some draft

/-- The view says what each field of the record makes of a value. -/
def ViewedBy (record : Record σ α) (view : String → σ → Spelling → Option σ) : Prop :=
  ∀ field ∈ record.fields, ∀ draft, Views (field.fill draft) (view field.key draft)

theorem member_toOption (h : record.ViewedBy view) (key : String) (draft : σ)
    (afterKey before : Blank) (value : Spelling) {rest : List Char} (hrest : Follows rest) :
    (record.member key draft (afterKey.chars ++ ':' ::
        (before.chars ++ (value.chars ++ rest)))).toOption =
      (record.take view draft (key, value)).map (·, rest) := by
  rw [member, take]
  cases hfield : record.fields.find? (·.key = key) with
  | none =>
      have hskip : skipValue [] (before.chars ++ (value.chars ++ rest)) = .ok rest := by
        rw [skipValue_chars value before [] hrest, skipClosing]
      simp [colon_blank, hskip]
  | some field =>
      have hview := h field (List.mem_of_find?_eq_some hfield) draft before value hrest
      by_cases hfilled : field.filled draft <;> simp [hfilled, colon_blank, hview]

theorem members_closing {first : Bool} {s r : List Char} (draft : σ)
    (h : nextKey first s = .ok (none, r)) : record.members draft first s = .ok (draft, r) := by
  rw [members]
  split <;> simp_all

theorem members_toOption {first : Bool} {key : Option String} {s r : List Char} (draft : σ)
    (h : (nextKey first s).toOption = key.map fun key => (some key, r)) :
    (record.members draft first s).toOption = key.bind fun key =>
      (record.member key draft r).toOption.bind fun p =>
        (record.members p.1 false p.2).toOption := by
  cases key with
  | none =>
      rw [members]
      split <;> simp_all
  | some key =>
      have hkey : nextKey first s = .ok (some key, r) := by
        cases hn : nextKey first s <;> simp_all
      cases hm : record.member key draft r with
      | ok p => simp [members_next hkey hm, hm]
      | error fault =>
          rw [members]
          split
          · simp [hm]
          · simp_all
          · next h1 =>
            rw [hkey] at h1
            cases h1
            split <;> simp_all

/-- What the members of an object do to a draft, one after the other. -/
def takeAll (record : Record σ α) (view : String → σ → Spelling → Option σ) (draft : σ)
    (members : List (Member Spelling)) : Option σ :=
  members.foldlM (fun draft member =>
    member.key.text?.bind fun key => record.take view draft (key, member.item.value)) draft

theorem takeAll_cons (draft : σ) (m : Member Spelling) (rest : List (Member Spelling)) :
    record.takeAll view draft (m :: rest) = m.key.text?.bind fun key =>
      (record.take view draft (key, m.item.value)).bind fun draft =>
        record.takeAll view draft rest := by
  rw [takeAll, List.foldlM_cons, Option.bind_eq_bind, Option.bind_assoc]
  rfl

/-- A member and all that follow it do to a draft what their views say. -/
theorem members_member (h : record.ViewedBy view) {first : Bool} {s t : List Char}
    {m : Member Spelling} {rest : List (Member Spelling)} {inside : Blank} (draft : σ)
    (hkey : (nextKey first s).toOption = m.key.text?.map fun key => (some key,
      m.afterKey.chars ++ ':' :: (m.item.before.chars ++ (m.item.value.chars ++
        (m.item.after.chars ++ membersTail rest inside t)))))
    (hrest : ∀ draft,
      (record.members draft false (m.item.after.chars ++ membersTail rest inside t)).toOption =
        (record.takeAll view draft rest).map (·, t)) :
    (record.members draft first s).toOption =
      (record.takeAll view draft (m :: rest)).map (·, t) := by
  have hfollows := (follows_membersTail rest inside t).blank m.item.after
  rw [members_toOption draft hkey, takeAll_cons]
  simp only [member_toOption h _ _ _ _ _ hfollows, Option.bind_map, Option.map_bind, hrest,
    Function.comp_def]

/-- The members after the first one. -/
theorem members_tail (h : record.ViewedBy view) (rest : List (Member Spelling)) (draft : σ)
    (after inside : Blank) (s : List Char) :
    (record.members draft false (after.chars ++ membersTail rest inside s)).toOption =
      (record.takeAll view draft rest).map (·, s) := by
  induction rest generalizing draft after with
  | nil => simp [members_closing draft (nextKey_end false after inside s), takeAll]
  | cons m rest ih =>
      rw [membersTail_cons]
      exact members_member h draft (nextKey_comma_key after m.beforeKey m.key _)
        fun draft => ih draft m.item.after

/-- All members of an object. -/
theorem members_chars (h : record.ViewedBy view) (ms : List (Member Spelling)) (draft : σ)
    (inside : Blank) (s : List Char) :
    ∃ r, (Spelling.object ms inside).chars ++ s = '{' :: r ∧
      (record.members draft true r).toOption = (record.takeAll view draft ms).map (·, s) := by
  cases ms with
  | nil =>
      refine ⟨_, chars_object_nil inside s, ?_⟩
      have hend : nextKey true (inside.chars ++ '}' :: s) = .ok (none, s) :=
        nextKey_end true {} inside s
      simp [members_closing draft hend, takeAll]
  | cons m ms =>
      refine ⟨_, chars_object_cons m ms inside s, ?_⟩
      exact members_member h draft (nextKey_key m.beforeKey m.key _)
        fun draft => members_tail h ms draft m.item.after inside s

theorem finished_toOption (draft : σ) (s : List Char) :
    (record.finished draft s).toOption = (record.finish draft).toOption.map (·, s) := by
  cases hfinish : record.finish draft <;> simp [finished, hfinish]

theorem reader_brace (before : Blank) (r : List Char) :
    (record.reader.run (before.chars ++ '{' :: r)).toOption =
      (record.members record.blank true r).toOption.bind fun p =>
        (record.finish p.1).toOption.map (·, p.2) := by
  have hbrace := skipSpace_of_not_isSpace (c := '{') (by decide) r
  cases hread : record.members record.blank true r <;>
    simp [reader, hbrace, hread, finished_toOption]

/-- An object is read by what its members do to the draft. -/
theorem reader_object (h : record.ViewedBy view) (before : Blank) (ms : List (Member Spelling))
    (inside : Blank) (s : List Char) :
    (record.reader.run (before.chars ++ ((Spelling.object ms inside).chars ++ s))).toOption =
      ((record.takeAll view record.blank ms).bind fun draft =>
        (record.finish draft).toOption).map (·, s) := by
  obtain ⟨r, hr, hmembers⟩ := members_chars h ms record.blank inside s
  rw [hr, reader_brace, hmembers, Option.bind_map, Option.map_bind]
  rfl

/-! ### Items of a list -/

/-- What values do to a draft that are for the fields of a record in their order. -/
def takeInOrder (view : String → σ → Spelling → Option σ) (draft : σ) (fields : List (Field σ))
    (values : List Spelling) : Option σ :=
  (fields.zip values).foldlM (fun draft p => view p.1.key draft p.2) draft

/-- Reads the fields of a record from a list of them, with the bracket that closes it. -/
def placed (record : Record σ α) (draft : σ) (count : Nat) (fields : List (Field σ))
    (s : List Char) : Option (σ × List Char) :=
  (record.positions draft count fields s).toOption.bind fun p =>
    (listEnd p.2).toOption.map (p.1, ·)

theorem placed_next {count : Nat} {first : Bool} {field : Field σ} {fields : List (Field σ)}
    {draft : σ} {s r : List Char} (hfirst : decide (count = 0) = first)
    (h : nextItem first s = .ok (true, r)) :
    record.placed draft count (field :: fields) s =
      ((field.fill draft).run r).toOption.bind fun p =>
        record.placed p.1 (count + 1) fields p.2 := by
  rw [placed, positions, hfirst, h]
  cases hr : (field.fill draft).run r <;> simp [hr, placed]

theorem placed_end (draft : σ) (count : Nat) (after inside : Blank) (s : List Char) :
    record.placed draft count [] (after.chars ++ itemsTail [] inside s) = some (draft, s) := by
  have hend := skipSpace_of_not_isSpace (c := ']') (by decide)
  simp [placed, positions, listEnd, itemsTail, itemTexts, hend]

/-- An item for a field and all that follow it do to a draft what their views say. -/
theorem placed_value (h : record.ViewedBy view) {first : Bool} {count : Nat} {field : Field σ}
    {fields : List (Field σ)} {s t : List Char} {i : Item Spelling} {is : List (Item Spelling)}
    {inside : Blank} (hfield : field ∈ record.fields) (draft : σ)
    (hfirst : decide (count = 0) = first)
    (hnext : nextItem first s =
      .ok (true, i.value.chars ++ (i.after.chars ++ itemsTail is inside t)))
    (hrest : ∀ draft,
      record.placed draft (count + 1) fields (i.after.chars ++ itemsTail is inside t) =
        (takeInOrder view draft fields (is.map (·.value))).map (·, t)) :
    record.placed draft count (field :: fields) s =
      (takeInOrder view draft (field :: fields) ((i :: is).map (·.value))).map (·, t) := by
  have hfollows := (follows_itemsTail is inside t).blank i.after
  rw [placed_next hfirst hnext, (h field hfield draft).run i.value hfollows, Option.bind_map,
    takeInOrder, List.map_cons, List.zip_cons_cons, List.foldlM_cons, Option.bind_eq_bind,
    Option.map_bind]
  exact Option.bind_congr fun draft _ => hrest draft

/-- The items after the first one. -/
theorem placed_tail (h : record.ViewedBy view) (is : List (Item Spelling))
    {fields : List (Field σ)} (hfields : fields ⊆ record.fields)
    (hlength : fields.length = is.length) (draft : σ) (count : Nat) (after inside : Blank)
    (s : List Char) :
    record.placed draft (count + 1) fields (after.chars ++ itemsTail is inside s) =
      (takeInOrder view draft fields (is.map (·.value))).map (·, s) := by
  induction is generalizing fields draft count after with
  | nil =>
      cases List.length_eq_zero_iff.1 hlength
      rw [placed_end]
      rfl
  | cons i is ih =>
      cases fields with
      | nil => cases hlength
      | cons field fields =>
          obtain ⟨hfield, hfields⟩ := List.cons_subset.1 hfields
          rw [itemsTail_cons]
          exact placed_value h hfield draft (by simp)
            (nextItem_comma_value after i.before i.value _)
            fun draft => ih hfields (by simpa using hlength) draft (count + 1) i.after

/-- A list with one item for each field. -/
theorem placed_chars (h : record.ViewedBy view) (is : List (Item Spelling))
    (hlength : record.fields.length = is.length) (draft : σ) (inside : Blank) (s : List Char) :
    ∃ r, (Spelling.list is inside).chars ++ s = '[' :: r ∧
      record.placed draft 0 record.fields r =
        (takeInOrder view draft record.fields (is.map (·.value))).map (·, s) := by
  cases is with
  | nil =>
      refine ⟨_, chars_list_nil inside s, ?_⟩
      rw [List.length_eq_zero_iff.1 hlength]
      exact placed_end draft 0 {} inside s
  | cons i is =>
      refine ⟨_, chars_list_cons i is inside s, ?_⟩
      cases hfields : record.fields with
      | nil => simp [hfields] at hlength
      | cons field fields =>
          have hsubset : field :: fields ⊆ record.fields := by
            rw [hfields]
            exact List.Subset.refl _
          obtain ⟨hfield, hrest⟩ := List.cons_subset.1 hsubset
          have hlength' : fields.length = is.length := by simpa [hfields] using hlength
          exact placed_value h hfield draft rfl (nextItem_value i.before i.value _)
            fun draft => placed_tail h is hrest hlength' draft 0 i.after inside s

theorem reader_bracket (before : Blank) (r : List Char) :
    (record.reader.run (before.chars ++ '[' :: r)).toOption =
      (record.placed record.blank 0 record.fields r).bind fun p =>
        (record.finish p.1).toOption.map (·, p.2) := by
  have hbracket := skipSpace_of_not_isSpace (c := '[') (by decide) r
  cases hread : record.positions record.blank 0 record.fields r with
  | error fault => simp [reader, placed, hbracket, hread]
  | ok p =>
      cases hend : listEnd p.2 <;>
        simp [reader, placed, hbracket, hread, hend, finished_toOption]

/-- A list with one item for each field is read by what the items do to the draft. -/
theorem reader_list (h : record.ViewedBy view) (before : Blank) (is : List (Item Spelling))
    (hlength : record.fields.length = is.length) (inside : Blank) (s : List Char) :
    (record.reader.run (before.chars ++ ((Spelling.list is inside).chars ++ s))).toOption =
      ((takeInOrder view record.blank record.fields (is.map (·.value))).bind fun draft =>
        (record.finish draft).toOption).map (·, s) := by
  obtain ⟨r, hr, hplaced⟩ := placed_chars h is hlength record.blank inside s
  rw [hr, reader_bracket, hplaced, Option.bind_map, Option.map_bind]
  rfl

end Record

/-! ## Forms of values -/

namespace Spelling

/-- The value is a text. -/
def IsText : Spelling → Prop
  | .text _ => True
  | _ => False

/-- The value is a list of texts. -/
def IsTextList : Spelling → Prop
  | .list items _ => ∀ item ∈ items, item.value.IsText
  | _ => False

/-- The surrogate escapes of a value that is a text are paired. -/
def IsPairedText (value : Spelling) : Prop :=
  ∀ literal, value = .text literal → literal.text?.isSome

/-- The surrogate escapes are paired in a text and in the texts of a list. -/
def IsPaired : Spelling → Prop
  | .list items _ => ∀ item ∈ items, item.value.IsPairedText
  | value => value.IsPairedText

variable {value : Spelling}

theorem text?_isSome_iff (h : value.IsPairedText) : value.text?.isSome ↔ value.IsText := by
  cases value with
  | text literal => simp [text?, IsText, h literal rfl]
  | _ => simp [text?, IsText]

theorem IsPaired.text (h : value.IsPaired) : value.IsPairedText := by
  cases value with
  | list items inside =>
      intro literal hl
      cases hl
  | _ => exact h

theorem isPaired_text {literal : Literal} (h : literal.text?.isSome) : (text literal).IsPaired := by
  intro other hother
  cases hother
  exact h

theorem optionalText?_isSome_iff (h : value.IsPaired) :
    value.optionalText?.isSome ↔ value.IsText ∨ value = .null := by
  cases value with
  | null => simp [optionalText?]
  | _ => simp [optionalText?, text?_isSome_iff h.text]

theorem optionalText?_join (value : Spelling) : value.optionalText?.join = value.text? := by
  cases value with
  | text literal => cases ht : literal.text? <;> simp [optionalText?, text?, ht]
  | _ => rfl

theorem mapM_isSome_iff {f : α → Option β} (is : List α) :
    (is.mapM f).isSome ↔ ∀ i ∈ is, (f i).isSome := by
  induction is with
  | nil => simp
  | cons i is ih =>
      rw [List.forall_mem_cons, ← ih]
      cases hi : f i <;> cases his : is.mapM f <;> simp [hi, his]

theorem textList?_isSome_iff (h : value.IsPaired) :
    (value.list? text?).isSome ↔ value.IsTextList := by
  cases value with
  | list items inside =>
      rw [list?, IsTextList, mapM_isSome_iff]
      exact forall₂_congr fun item hitem => text?_isSome_iff (h item hitem)
  | _ => simp [list?, IsTextList]

end Spelling

/-! ## Documents -/

/-- A document: a value with the blanks around it. -/
def Item.text (document : Item Spelling) : String :=
  String.ofList (document.before.chars ++ (document.value.chars ++ document.after.chars))

/-- A document that is an object. -/
structure ObjectDocument where
  before : Blank := {}
  members : List (Member Spelling)
  inside : Blank := {}
  after : Blank := {}

/-- How an object stands in its document. -/
def ObjectDocument.text (o : ObjectDocument) : String :=
  Item.text ⟨o.before, .object o.members o.inside, o.after⟩

/-- A document that is a list. -/
structure ListDocument where
  before : Blank := {}
  items : List (Item Spelling)
  inside : Blank := {}
  after : Blank := {}

/-- How a list stands in its document. -/
def ListDocument.text (l : ListDocument) : String :=
  Item.text ⟨l.before, .list l.items l.inside, l.after⟩

theorem document_toOption {reader : Reader Fault α} {doc : Item Spelling} {a : Option α}
    (h : (reader.run (doc.before.chars ++ (doc.value.chars ++ doc.after.chars))).toOption =
      a.map (·, doc.after.chars)) :
    (document reader doc.text).toOption = a := by
  have hblank : skipSpace doc.after.chars = [] := by
    rw [← List.append_nil doc.after.chars, skipSpace_blank]
    rfl
  rw [document, Item.text, String.toList_ofList]
  cases hrun : reader.run (doc.before.chars ++ (doc.value.chars ++ doc.after.chars)) <;>
    cases a <;> simp_all

section Documents

variable {record : Record σ α} {view : String → σ → Spelling → Option σ}

theorem ObjectDocument.document_toOption (h : record.ViewedBy view) (o : ObjectDocument) :
    (document record.reader o.text).toOption =
      (record.takeAll view record.blank o.members).bind fun draft =>
        (record.finish draft).toOption :=
  Json.document_toOption (Record.reader_object h o.before o.members o.inside o.after.chars)

theorem ListDocument.document_toOption (h : record.ViewedBy view) (l : ListDocument)
    (hlength : record.fields.length = l.items.length) :
    (document record.reader l.text).toOption =
      (Record.takeInOrder view record.blank record.fields (l.items.map (·.value))).bind
        fun draft => (record.finish draft).toOption :=
  Json.document_toOption
    (Record.reader_list h l.before l.items hlength l.inside l.after.chars)

end Documents

end MockForge.Json

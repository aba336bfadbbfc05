import MockForge.Proofs.Json.Grammar
import MockForge.Proofs.Json.RoundTrip

/-!
# Passing over well-formed values

Whatever well-formed value stands at the front of a text, it is passed over to its end.
-/

namespace MockForge.Json

/-! ## Blanks and what follows a value -/

@[simp]
theorem skipSpace_blank (blank : Blank) (s : List Char) :
    skipSpace (blank.chars ++ s) = skipSpace s :=
  List.dropWhile_append_of_pos (List.all_eq_true.1 blank.all_isSpace)

theorem skipSpace_blank_cons {c : Char} (h : isSpace c = false) (blank : Blank) (s : List Char) :
    skipSpace (blank.chars ++ c :: s) = c :: s :=
  (skipSpace_blank blank (c :: s)).trans (skipSpace_of_not_isSpace h s)

/-- A text does not start with a digit. -/
def NoDigit (s : List Char) : Prop := ∀ c ∈ s.head?, c.isDigit = false

/-- A text can follow a value: nothing at its front goes on with a numeral. -/
def Follows (s : List Char) : Prop :=
  ∀ c ∈ s.head?, c.isDigit = false ∧ c ≠ '.' ∧ c ≠ 'e' ∧ c ≠ 'E'

theorem Follows.noDigit {s : List Char} (h : Follows s) : NoDigit s := fun c hc => (h c hc).1

theorem follows_cons {c : Char} (h : c = ',' ∨ c = ']' ∨ c = '}') (s : List Char) :
    Follows (c :: s) := by
  intro d hd
  cases Option.mem_some.1 hd
  rcases h with rfl | rfl | rfl <;> decide

theorem Follows.blank {s : List Char} (h : Follows s) (blank : Blank) :
    Follows (blank.chars ++ s) := by
  cases hb : blank.chars with
  | nil => exact h
  | cons c rest =>
      intro d hd
      cases Option.mem_some.1 hd
      have hspace := List.all_eq_true.1 blank.all_isSpace c (by simp [hb])
      have hcases : c = ' ' ∨ c = '\n' ∨ c = '\t' ∨ c = '\r' := by
        simpa [isSpace, or_assoc] using hspace
      rcases hcases with rfl | rfl | rfl | rfl <;> decide

/-! ## Text literals -/

theorem hexUnit_chars (a b c d : HexDigit) (rest : List Char) :
    hexUnit (a.char :: b.char :: c.char :: d.char :: rest) = .ok (unitValue a b c d, rest) := by
  rw [hexUnit, if_neg (Nat.not_lt.2 (four_le_byteLength _ _ _ _ rest))]
  simp only [a.isHex, b.isHex, c.isHex, d.isHex, unitValue]

theorem skipLiteral_pieces (pieces : List Piece) (rest : List Char) :
    skipLiteral (pieces.flatMap Piece.chars ++ '"' :: rest) = .ok rest := by
  induction pieces with
  | nil =>
      show skipLiteral ('"' :: rest) = _
      rw [skipLiteral]
  | cons piece pieces ih =>
      rw [List.flatMap_cons, List.append_assoc]
      cases piece with
      | plain c h =>
          obtain ⟨hquote, hbackslash, hcontrol⟩ := h
          rw [Piece.chars, List.singleton_append, skipLiteral, if_neg hcontrol, ih]
          · exact hquote
          · exact fun _ h _ => hbackslash h
          · exact fun h _ => hbackslash h
          · exact fun _ _ h _ => hbackslash h
      | escape e => cases e <;> simp [Piece.chars, Escape.letter, skipLiteral, ih]
      | unit a b c d =>
          simp only [Piece.chars, List.cons_append, List.nil_append]
          rw [skipLiteral]
          split
          · next h =>
            rw [hexUnit_chars] at h
            cases h
          · next h =>
            rw [hexUnit_chars] at h
            cases h
            exact ih

/-! ## Numerals -/

theorem skipDigits_append (digits : Digits) {s : List Char} (h : NoDigit s) :
    skipDigits (digits.chars ++ s) = .ok s := by
  have htake : s.takeWhile Char.isDigit = [] := by
    cases s with
    | nil => rfl
    | cons c s => simp [h c rfl]
  have hdrop : s.dropWhile Char.isDigit = s := by
    cases s with
    | nil => rfl
    | cons c s => simp [h c rfl]
  have hdigits := List.all_eq_true.1 digits.all_isDigit
  rw [skipDigits, List.takeWhile_append_of_pos hdigits, List.dropWhile_append_of_pos hdigits, htake,
    hdrop, List.append_nil]
  split
  · next hnil => exact absurd hnil digits.ne_nil
  · rfl

theorem Digits.chars_eq_cons (digits : Digits) :
    ∃ c rest, digits.chars = c :: rest ∧ c.isDigit = true := by
  cases hd : digits.chars with
  | nil => exact absurd hd digits.ne_nil
  | cons c rest => exact ⟨c, rest, rfl, List.all_eq_true.1 digits.all_isDigit c (by simp [hd])⟩

theorem ne_of_isDigit {c d : Char} (h : c.isDigit = true) (hd : d.isDigit = false) : c ≠ d := by
  rintro rfl
  rw [h] at hd
  cases hd

theorem skipExponent_letter {c : Char} (hc : c = 'e' ∨ c = 'E') (negative : Option Bool)
    (digits : Digits) {s : List Char} (h : NoDigit s) :
    skipExponent (c :: ((negative.map fun negative => if negative then '-' else '+').toList
      ++ (digits.chars ++ s))) = .ok s := by
  have hdigits := skipDigits_append digits h
  obtain ⟨d, rest, hd, hdigit⟩ := digits.chars_eq_cons
  rcases hc with rfl | rfl <;> cases negative with
  | some negative => cases negative <;> simpa [skipExponent] using hdigits
  | none =>
      have hplus := ne_of_isDigit hdigit (d := '+') (by decide)
      have hminus := ne_of_isDigit hdigit (d := '-') (by decide)
      rw [hd] at hdigits ⊢
      simpa [skipExponent, hplus, hminus] using hdigits

theorem skipExponent_append (exponent : Option Exponent) {s : List Char} (h : Follows s) :
    skipExponent ((exponent.map Exponent.chars).getD [] ++ s) = .ok s := by
  cases exponent with
  | none =>
      show skipExponent s = _
      unfold skipExponent
      split
      · exact absurd rfl (h 'e' rfl).2.2.1
      · exact absurd rfl (h 'E' rfl).2.2.2
      · rfl
  | some exponent =>
      have hletter : (if exponent.capital then 'E' else 'e') = 'e' ∨
          (if exponent.capital then 'E' else 'e') = 'E' := by
        cases exponent.capital <;> decide
      have := skipExponent_letter hletter exponent.negative exponent.digits h.noDigit
      simpa [Exponent.chars] using this

/-- Neither a digit nor a point stands where a numeral may have its exponent. -/
theorem head_exponent (exponent : Option Exponent) {s : List Char} (h : Follows s) :
    ∀ c ∈ ((exponent.map Exponent.chars).getD [] ++ s).head?, c.isDigit = false ∧ c ≠ '.' := by
  cases exponent with
  | none => exact fun c hc => ⟨(h c hc).1, (h c hc).2.1⟩
  | some exponent =>
      intro c hc
      cases Option.mem_some.1 hc
      cases exponent.capital <;> decide

theorem skipFraction_tail (numeral : Numeral) {s : List Char} (h : Follows s) :
    skipFraction (numeral.tail ++ s) = .ok s := by
  have hexponent := skipExponent_append numeral.exponent h
  have hhead := head_exponent numeral.exponent h
  rw [Numeral.tail, List.append_assoc]
  cases numeral.fraction with
  | none =>
      show skipFraction ((numeral.exponent.map Exponent.chars).getD [] ++ s) = _
      unfold skipFraction
      split
      · next rest hs =>
        rw [hs] at hhead
        exact absurd rfl (hhead '.' rfl).2
      · exact hexponent
  | some digits =>
      have hdigits := skipDigits_append digits fun c hc => (hhead c hc).1
      simp [skipFraction, hdigits, Except.bind, hexponent]

theorem noDigit_tail (numeral : Numeral) {s : List Char} (h : Follows s) :
    NoDigit (numeral.tail ++ s) := by
  rw [Numeral.tail, List.append_assoc]
  cases numeral.fraction with
  | none => exact fun c hc => (head_exponent numeral.exponent h c hc).1
  | some digits =>
      intro c hc
      cases Option.mem_some.1 hc
      decide

theorem skipNumber_zero {s : List Char} (h : NoDigit s) :
    skipNumber ('0' :: s) = skipFraction s := by
  cases s with
  | nil => rfl
  | cons c s => simp [skipNumber, h c rfl]

theorem skipNumber_chars (numeral : Numeral) {s : List Char} (h : Follows s) :
    skipNumber (numeral.whole.chars ++ (numeral.tail ++ s)) = .ok s := by
  have hfraction := skipFraction_tail numeral h
  have hnoDigit := noDigit_tail numeral h
  rcases numeral.leading with hzero | hhead
  · rw [hzero, List.singleton_append, skipNumber_zero hnoDigit, hfraction]
  · have hdigits := skipDigits_append numeral.whole hnoDigit
    unfold skipNumber
    split
    · next rest hs =>
      obtain ⟨c, digits, hd, -⟩ := numeral.whole.chars_eq_cons
      rw [hd] at hs hhead
      cases hs
      exact absurd rfl hhead
    · rw [hdigits]
      exact hfraction

/-! ## Scalars -/

theorem skipScalar_digit {c : Char} (h : c.isDigit = true) (s : List Char) :
    skipScalar (c :: s) = skipNumber (c :: s) := by
  have hn := ne_of_isDigit h (d := 'n') (by decide)
  have ht := ne_of_isDigit h (d := 't') (by decide)
  have hf := ne_of_isDigit h (d := 'f') (by decide)
  have hq := ne_of_isDigit h (d := '"') (by decide)
  have hm := ne_of_isDigit h (d := '-') (by decide)
  rw [skipScalar, if_pos h]
  all_goals assumption

theorem skipScalar_number (numeral : Numeral) {s : List Char} (h : Follows s) :
    skipScalar (numeral.chars ++ s) = .ok s := by
  have hnumber := skipNumber_chars numeral h
  rw [Numeral.chars]
  cases numeral.negative with
  | true => simpa [skipScalar] using hnumber
  | false =>
      obtain ⟨c, digits, hd, hdigit⟩ := numeral.whole.chars_eq_cons
      rw [hd] at hnumber ⊢
      exact (skipScalar_digit hdigit _).trans (by simpa using hnumber)

theorem skipScalar_text (literal : Literal) (s : List Char) :
    skipScalar (literal.chars ++ s) = .ok s := by
  have hpieces := skipLiteral_pieces literal.pieces s
  simpa [Literal.chars, Literal.tail, skipScalar] using hpieces

theorem skipScalar_null (s : List Char) : skipScalar ("null".toList ++ s) = .ok s := rfl

theorem skipScalar_boolean (value : Bool) (s : List Char) :
    skipScalar (booleanText value ++ s) = .ok s := by
  cases value <;> rfl

/-! ## Keys -/

theorem skipKey_chars (beforeKey : Blank) (key : Literal) (afterKey : Blank) (s : List Char) :
    skipKey (beforeKey.chars ++ (key.chars ++ (afterKey.chars ++ ':' :: s))) = .ok s := by
  have hpieces := skipLiteral_pieces key.pieces (afterKey.chars ++ ':' :: s)
  have hquote := skipSpace_of_not_isSpace (c := '"') (by decide)
  have hcolon := skipSpace_of_not_isSpace (c := ':') (by decide)
  simp [skipKey, Literal.chars, Literal.tail, hquote, hcolon, hpieces]

/-! ## One step in the open brackets -/

section Steps

variable {b : List Bracket} {c : Char} {s r t u : List Char}

theorem skipValue_emptyList (h : skipSpace s = '[' :: r) (hr : skipSpace r = ']' :: t) :
    skipValue b s = skipClosing b t := by
  rw [skipValue]
  split <;> rename_i hs <;> rw [h] at hs <;> cases hs
  · split <;> simp_all
  · simp_all

theorem skipValue_list (h : skipSpace s = '[' :: r) (hr : skipSpace r = c :: t) (hc : c ≠ ']') :
    skipValue b s = skipValue (.list :: b) (c :: t) := by
  rw [skipValue]
  split <;> rename_i hs <;> rw [h] at hs <;> cases hs
  · split <;> rename_i hend <;> rw [hr] at hend
    · cases hend
      exact absurd rfl hc
    · cases hend
    · rw [hr]
  · simp_all

theorem skipValue_emptyObject (h : skipSpace s = '{' :: r) (hr : skipSpace r = '}' :: t) :
    skipValue b s = skipClosing b t := by
  rw [skipValue]
  split <;> rename_i hs <;> rw [h] at hs <;> cases hs
  · split <;> simp_all
  · simp_all

theorem skipValue_object (h : skipSpace s = '{' :: r) (hr : skipSpace r = c :: t)
    (hc : c ≠ '}') (hk : skipKey (c :: t) = .ok u) :
    skipValue b s = skipValue (.object :: b) u := by
  rw [skipValue]
  split <;> rename_i hs <;> rw [h] at hs <;> cases hs
  · split <;> rename_i hend <;> rw [hr] at hend
    · cases hend
      exact absurd rfl hc
    · split <;> simp_all
  · simp_all

theorem skipValue_scalar (h : skipSpace s = c :: r) (hlist : c ≠ '[') (hobject : c ≠ '{')
    (hs : skipScalar (c :: r) = .ok t) : skipValue b s = skipClosing b t := by
  rw [skipValue]
  split <;> rename_i hc <;> rw [h] at hc <;> cases hc
  · exact absurd rfl hlist
  · exact absurd rfl hobject
  · split <;> simp_all

theorem skipClosing_nextItem (h : skipSpace s = ',' :: r) :
    skipClosing (.list :: b) s = skipValue (.list :: b) r := by
  rw [skipClosing]
  split <;> simp_all

theorem skipClosing_listEnd (h : skipSpace s = ']' :: r) :
    skipClosing (.list :: b) s = skipClosing b r := by
  rw [skipClosing]
  split <;> simp_all

theorem skipClosing_nextMember (h : skipSpace s = ',' :: r) (hk : skipKey r = .ok t) :
    skipClosing (.object :: b) s = skipValue (.object :: b) t := by
  rw [skipClosing]
  split
  · next rest hs =>
    rw [h] at hs
    cases hs
    split <;> simp_all
  all_goals simp_all

theorem skipClosing_objectEnd (h : skipSpace s = '}' :: r) :
    skipClosing (.object :: b) s = skipClosing b r := by
  rw [skipClosing]
  split <;> simp_all

end Steps

/-! ## Values -/

/-- A value of a form can start with a character. -/
def Spelling.Opens : Spelling → Char → Prop
  | .null, c => c = 'n'
  | .boolean _, c => c = 't' ∨ c = 'f'
  | .number _, c => c = '-' ∨ c.isDigit = true
  | .text _, c => c = '"'
  | .list _ _, c => c = '['
  | .object _ _, c => c = '{'

theorem Numeral.chars_eq_cons (numeral : Numeral) :
    ∃ c tail, numeral.chars = c :: tail ∧ (c = '-' ∨ c.isDigit = true) := by
  rw [Numeral.chars]
  cases numeral.negative with
  | true => exact ⟨'-', _, rfl, .inl rfl⟩
  | false =>
      obtain ⟨c, rest, hc, hdigit⟩ := numeral.whole.chars_eq_cons
      exact ⟨c, rest ++ numeral.tail, by simp [hc], .inr hdigit⟩

theorem Spelling.chars_eq_cons (value : Spelling) :
    ∃ c tail, value.chars = c :: tail ∧ value.Opens c := by
  cases value with
  | null => exact ⟨'n', _, rfl, rfl⟩
  | boolean value =>
      cases value
      · exact ⟨'f', _, rfl, .inr rfl⟩
      · exact ⟨'t', _, rfl, .inl rfl⟩
  | number numeral => simpa [chars, Opens] using numeral.chars_eq_cons
  | text literal => exact ⟨'"', _, by rw [chars, Literal.chars], rfl⟩
  | list items inside => exact ⟨'[', _, by rw [chars], rfl⟩
  | object members inside => exact ⟨'{', _, by rw [chars], rfl⟩

/-- Neither a blank nor a closing bracket opens a value. -/
theorem Spelling.Opens.ne {value : Spelling} {c d : Char} (h : value.Opens c)
    (hd : d ∈ [' ', '\n', '\t', '\r', ']', '}']) : c ≠ d := by
  rintro rfl
  have hnone : [' ', '\n', '\t', '\r', ']', '}'].all (!·.isDigit) = true := by decide
  have hc : c.isDigit = false := by simpa using List.all_eq_true.1 hnone c hd
  cases value with
  | boolean value => rcases h with rfl | rfl <;> simp at hd
  | number numeral =>
      rcases h with rfl | hdigit
      · simp at hd
      · rw [hdigit] at hc
        cases hc
  | _ =>
      cases h
      simp at hd

theorem Spelling.Opens.not_isSpace {value : Spelling} {c : Char} (h : value.Opens c) :
    isSpace c = false := by
  simp [isSpace, h.ne]

@[simp]
theorem skipSpace_spelling (value : Spelling) (s : List Char) :
    skipSpace (value.chars ++ s) = value.chars ++ s := by
  obtain ⟨c, tail, hchars, hopens⟩ := value.chars_eq_cons
  rw [hchars, List.cons_append, skipSpace_of_not_isSpace hopens.not_isSpace]

@[simp]
theorem skipSpace_literal (literal : Literal) (s : List Char) :
    skipSpace (literal.chars ++ s) = literal.chars ++ s :=
  skipSpace_of_not_isSpace (by decide) _

/-- What follows the first item of a list. -/
def itemsTail (rest : List (Item Spelling)) (inside : Blank) (s : List Char) : List Char :=
  (itemTexts rest).flatMap ([','] ++ ·) ++ (inside.chars ++ ']' :: s)

/-- What follows the first member of an object. -/
def membersTail (rest : List (Member Spelling)) (inside : Blank) (s : List Char) : List Char :=
  (memberTexts rest).flatMap ([','] ++ ·) ++ (inside.chars ++ '}' :: s)

theorem itemsTail_cons (item : Item Spelling) (rest : List (Item Spelling)) (inside : Blank)
    (s : List Char) :
    itemsTail (item :: rest) inside s = ',' :: (item.before.chars ++ (item.value.chars ++
      (item.after.chars ++ itemsTail rest inside s))) := by
  simp [itemsTail, itemTexts]

theorem membersTail_cons (member : Member Spelling) (rest : List (Member Spelling)) (inside : Blank)
    (s : List Char) :
    membersTail (member :: rest) inside s = ',' :: (member.beforeKey.chars ++ (member.key.chars ++
      (member.afterKey.chars ++ ':' :: (member.item.before.chars ++ (member.item.value.chars ++
        (member.item.after.chars ++ membersTail rest inside s)))))) := by
  simp [membersTail, memberTexts]

theorem chars_list_nil (inside : Blank) (s : List Char) :
    (Spelling.list [] inside).chars ++ s = '[' :: (inside.chars ++ ']' :: s) := by
  simp [Spelling.chars, itemTexts, joined]

theorem chars_list_cons (item : Item Spelling) (rest : List (Item Spelling)) (inside : Blank)
    (s : List Char) :
    (Spelling.list (item :: rest) inside).chars ++ s = '[' :: (item.before.chars ++
      (item.value.chars ++ (item.after.chars ++ itemsTail rest inside s))) := by
  simp [Spelling.chars, itemTexts, joined_cons, itemsTail]

theorem chars_object_nil (inside : Blank) (s : List Char) :
    (Spelling.object [] inside).chars ++ s = '{' :: (inside.chars ++ '}' :: s) := by
  simp [Spelling.chars, memberTexts, joined]

theorem chars_object_cons (member : Member Spelling) (rest : List (Member Spelling))
    (inside : Blank) (s : List Char) :
    (Spelling.object (member :: rest) inside).chars ++ s = '{' :: (member.beforeKey.chars ++
      (member.key.chars ++ (member.afterKey.chars ++ ':' :: (member.item.before.chars ++
        (member.item.value.chars ++ (member.item.after.chars ++
          membersTail rest inside s)))))) := by
  simp [Spelling.chars, memberTexts, joined_cons, membersTail]

theorem follows_itemsTail (rest : List (Item Spelling)) (inside : Blank) (s : List Char) :
    Follows (itemsTail rest inside s) := by
  cases rest with
  | nil => exact (follows_cons (.inr (.inl rfl)) s).blank inside
  | cons item rest =>
      rw [itemsTail_cons]
      exact follows_cons (.inl rfl) _

theorem follows_membersTail (rest : List (Member Spelling)) (inside : Blank) (s : List Char) :
    Follows (membersTail rest inside s) := by
  cases rest with
  | nil => exact (follows_cons (.inr (.inr rfl)) s).blank inside
  | cons member rest =>
      rw [membersTail_cons]
      exact follows_cons (.inl rfl) _

mutual

/-- A value is passed over to its end, whatever brackets are open around it. -/
theorem skipValue_chars (value : Spelling) (before : Blank) (b : List Bracket) {s : List Char}
    (h : Follows s) : skipValue b (before.chars ++ (value.chars ++ s)) = skipClosing b s := by
  have hspace : skipSpace (before.chars ++ (value.chars ++ s)) = value.chars ++ s := by simp
  match value with
  | .null => exact skipValue_scalar hspace (by decide) (by decide) (skipScalar_null s)
  | .boolean value =>
      have hscalar := skipScalar_boolean value s
      cases value
      · exact skipValue_scalar hspace (by decide) (by decide) hscalar
      · exact skipValue_scalar hspace (by decide) (by decide) hscalar
  | .number numeral =>
      have hscalar := skipScalar_number numeral h
      obtain ⟨c, tail, hchars, hopens⟩ := (Spelling.number numeral).chars_eq_cons
      rw [hchars, List.cons_append] at hspace
      rw [Spelling.chars] at hchars
      rw [hchars, List.cons_append] at hscalar
      have hne : c ≠ '[' ∧ c ≠ '{' := by
        rcases hopens with rfl | hdigit
        · decide
        · exact ⟨ne_of_isDigit hdigit (by decide), ne_of_isDigit hdigit (by decide)⟩
      rw [Spelling.chars, hchars]
      exact skipValue_scalar hspace hne.1 hne.2 hscalar
  | .text literal =>
      have hscalar := skipScalar_text literal s
      exact skipValue_scalar hspace (by decide) (by decide) hscalar
  | .list [] inside =>
      rw [chars_list_nil] at hspace ⊢
      exact skipValue_emptyList hspace (skipSpace_blank_cons (by decide) inside s)
  | .list (⟨first, value, after⟩ :: rest) inside =>
      rw [chars_list_cons] at hspace ⊢
      obtain ⟨c, tail, hchars, hopens⟩ := value.chars_eq_cons
      have hfirst : skipSpace (first.chars ++ (value.chars ++ (after.chars ++
          itemsTail rest inside s))) = c :: (tail ++ (after.chars ++ itemsTail rest inside s)) := by
        rw [hchars, List.cons_append, skipSpace_blank_cons hopens.not_isSpace]
      have hvalue := skipValue_chars value {} (.list :: b)
        ((follows_itemsTail rest inside s).blank after)
      rw [hchars] at hvalue
      rw [skipValue_list hspace hfirst (hopens.ne (by decide))]
      exact hvalue.trans (skipClosing_items rest after inside b s)
  | .object [] inside =>
      rw [chars_object_nil] at hspace ⊢
      exact skipValue_emptyObject hspace (skipSpace_blank_cons (by decide) inside s)
  | .object (⟨beforeKey, key, afterKey, ⟨first, value, after⟩⟩ :: rest) inside =>
      rw [chars_object_cons] at hspace ⊢
      rw [skipValue_object hspace ((skipSpace_blank _ _).trans (skipSpace_literal _ _)) (by decide)
        (skipKey_chars {} key afterKey _)]
      rw [skipValue_chars value first (.object :: b)
        ((follows_membersTail rest inside s).blank after)]
      exact skipClosing_members rest after inside b s

/-- The items that are left of a list are passed over with its bracket. -/
theorem skipClosing_items (rest : List (Item Spelling)) (after inside : Blank) (b : List Bracket)
    (s : List Char) :
    skipClosing (.list :: b) (after.chars ++ itemsTail rest inside s) = skipClosing b s := by
  match rest with
  | [] =>
      exact skipClosing_listEnd
        ((skipSpace_blank after _).trans (skipSpace_blank_cons (by decide) inside s))
  | ⟨before, value, after'⟩ :: rest =>
      rw [itemsTail_cons, skipClosing_nextItem (skipSpace_blank_cons (by decide) after _)]
      rw [skipValue_chars value before (.list :: b)
        ((follows_itemsTail rest inside s).blank after')]
      exact skipClosing_items rest after' inside b s

/-- The members that are left of an object are passed over with its bracket. -/
theorem skipClosing_members (rest : List (Member Spelling)) (after inside : Blank)
    (b : List Bracket) (s : List Char) :
    skipClosing (.object :: b) (after.chars ++ membersTail rest inside s) = skipClosing b s := by
  match rest with
  | [] =>
      exact skipClosing_objectEnd
        ((skipSpace_blank after _).trans (skipSpace_blank_cons (by decide) inside s))
  | ⟨beforeKey, key, afterKey, ⟨before, value, after'⟩⟩ :: rest =>
      rw [membersTail_cons, skipClosing_nextMember (skipSpace_blank_cons (by decide) after _)
        (skipKey_chars beforeKey key afterKey _)]
      rw [skipValue_chars value before (.object :: b)
        ((follows_membersTail rest inside s).blank after')]
      exact skipClosing_members rest after' inside b s

end

end MockForge.Json

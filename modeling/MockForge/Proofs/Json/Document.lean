import MockForge.Proofs.Json.Reading

/-!
# Reading any document

A reader for values of all forms. Its numbers are integers, and the members of its objects stay in
the order of the document. It goes down to a given depth of nesting, which for a whole document is
its length. Main statement: `views_value`.
-/

namespace MockForge.Json

variable {α : Type}

/-! ## Readers -/

/-- Goes on as the first character that is not blank decides. -/
def byFirst (reader : Char → Reader Fault α) : Reader Fault α where
  run s :=
    match skipSpace s with
    | [] => .error .endOfText
    | c :: rest => (reader c).run (c :: rest)
  shortens := by
    intro s a r h
    have h0 := skipSpace_length_le s
    split at h
    · cases h
    · next c rest hs =>
      have h1 := (reader c).shortens h
      rw [hs] at h0
      omega

theorem skipWord_shortens {first : Char} {others s r : List Char}
    (h : skipWord (first :: others) s = .ok r) : r.length < s.length := by
  cases s with
  | nil => cases h
  | cons c rest =>
      rw [skipWord] at h
      split at h
      · exact Nat.lt_succ_of_le (skipWord_length_le h)
      · cases h

theorem map_skipWord_shortens {first : Char} {others s r : List Char} {a b : α}
    (h : ((skipWord (first :: others) (skipSpace s)).map (a, ·)) = .ok (b, r)) :
    r.length < s.length := by
  cases hw : skipWord (first :: others) (skipSpace s) with
  | error fault =>
      rw [hw] at h
      cases h
  | ok tail =>
      rw [hw] at h
      cases h
      exact Nat.lt_of_lt_of_le (skipWord_shortens hw) (skipSpace_length_le s)

/-- Reads a word that stands for a value. -/
def word (first : Char) (others : List Char) (a : α) : Reader Fault α where
  run s := (skipWord (first :: others) (skipSpace s)).map (a, ·)
  shortens := map_skipWord_shortens

/-- The number that the digits at the front of a text write, if nothing but digits belongs to it. -/
def natural (s : List Char) : Except Fault (Nat × List Char) :=
  match skipNumber s with
  | .error fault => .error fault
  | .ok rest =>
      let digits := s.take (s.length - rest.length)
      if digits.all Char.isDigit then .ok (Nat.ofDigitChars 10 digits 0, rest)
      else .error .malformed

theorem natural_shortens {s r : List Char} {n : Nat} (h : natural s = .ok (n, r)) :
    r.length < s.length := by
  unfold natural at h
  split at h
  · cases h
  · next rest hr =>
    dsimp only at h
    split at h
    · cases h
      exact skipNumber_shortens hr
    · cases h

/-- Reads an integer. A negative zero is none. -/
def integer : Reader Fault Int where
  run s :=
    match skipSpace s with
    | '-' :: rest =>
        match natural rest with
        | .error fault => .error fault
        | .ok (n, r) => if n = 0 then .error .malformed else .ok (-(n : Int), r)
    | other => (natural other).map fun p => ((p.1 : Int), p.2)
  shortens := by
    intro s n r h
    have h0 := skipSpace_length_le s
    split at h
    · next rest hs =>
      rw [hs, List.length_cons] at h0
      split at h
      · cases h
      · next m r' hn =>
        have h1 := natural_shortens hn
        split at h
        · cases h
        · cases h
          omega
    · cases hn : natural (skipSpace s) with
      | error fault =>
          rw [hn] at h
          cases h
      | ok p =>
          obtain ⟨m, r'⟩ := p
          rw [hn] at h
          cases h
          exact Nat.lt_of_lt_of_le (natural_shortens hn) h0

theorem bind_colon_shortens {item : Reader Fault α} {s r : List Char} {a : α}
    (h : (Record.colon s).bind item.run = .ok (a, r)) : r.length < s.length := by
  cases hc : Record.colon s with
  | error fault =>
      rw [hc] at h
      cases h
  | ok rest =>
      rw [hc] at h
      exact Nat.lt_trans (item.shortens h) (Record.colon_shortens hc)

/-- Reads the value of a member, with the colon before it. -/
def memberValue (item : Reader Fault α) : Reader Fault α where
  run s := (Record.colon s).bind item.run
  shortens := bind_colon_shortens

/-- Reads members up to and with the closing bracket of their object. -/
def entries (item : Reader Fault α) (first : Bool) (s : List Char) :
    Except Fault (List (String × α) × List Char) :=
  match _h : Record.nextKey first s with
  | .error fault => .error fault
  | .ok (none, rest) => .ok ([], rest)
  | .ok (some key, rest) =>
      match _h1 : (memberValue item).run rest with
      | .error fault => .error fault
      | .ok (a, tail) =>
          match entries item false tail with
          | .error fault => .error fault
          | .ok (as, r) => .ok ((key, a) :: as, r)
termination_by s.length
decreasing_by
  have h0 := Record.nextKey_shortens _h
  have h1 := (memberValue item).shortens _h1
  omega

theorem entries_shortens {item : Reader Fault α} {first : Bool} {s r : List Char}
    {as : List (String × α)} (h : entries item first s = .ok (as, r)) : r.length < s.length := by
  fun_induction entries item first s generalizing as r with
  | case1 => cases h
  | case2 first s rest hn =>
      cases h
      exact Record.nextKey_shortens hn
  | case3 => cases h
  | case4 => cases h
  | case5 first s key rest hn a tail ht as' r' hr ih =>
      have h0 := Record.nextKey_shortens hn
      have h1 := (memberValue item).shortens ht
      have h2 := ih hr
      cases h
      omega

/-- Reads an object. -/
def object (item : Reader Fault α) : Reader Fault (List (String × α)) where
  run s :=
    match skipSpace s with
    | '{' :: rest => entries item true rest
    | other => .error (misplaced "a map" other)
  shortens := by
    intro s a r h
    have h0 := skipSpace_length_le s
    split at h
    · next rest hs =>
      have h1 := entries_shortens h
      rw [hs, List.length_cons] at h0
      omega
    · cases h

/-- Reads a value of the form that its first character tells. -/
def form (item : Reader Fault Value) : Char → Reader Fault Value
  | 'n' => word 'n' "ull".toList .null
  | 't' => word 't' "rue".toList (.boolean true)
  | 'f' => word 'f' "alse".toList (.boolean false)
  | '"' => text.map .text
  | '[' => (list item).map .list
  | '{' => (object item).map .object
  | _ => integer.map .number

/-- Reads a value of any form, in which no list or object is nested deeper than the depth. -/
def value : Nat → Reader Fault Value
  | 0 => ⟨fun _ => .error .malformed, nofun⟩
  | depth + 1 => byFirst (form (value depth))

/-- The value that a document holds. This reads the JSON grammar without the limit on nesting that
readers of whole values usually have: lists and objects may be nested as deep as the text is
long. -/
def Value.ofText (s : String) : Except Fault Value := document (value s.length) s

/-! ## What they make of well-formed values -/

/-- The integer that a numeral writes, if it writes one. -/
def Numeral.integer? (numeral : Numeral) : Option Int :=
  if numeral.tail = [] then
    let n := Nat.ofDigitChars 10 numeral.whole.chars 0
    if !numeral.negative then some n else if n = 0 then none else some (-(n : Int))
  else none

/-- The key and the value of a member, as the view gives it. -/
def Member.view? (view : Spelling → Option α) (member : Member Spelling) : Option (String × α) :=
  member.key.text?.bind fun key => (view member.item.value).map (key, ·)

/-- The members of a value that is an object. -/
def Spelling.object? (view : Spelling → Option α) : Spelling → Option (List (String × α))
  | .object members _ => members.mapM (Member.view? view)
  | _ => none

/-- What a spelling stands for, if it is not nested deeper than the depth. -/
def Spelling.value? : Nat → Spelling → Option Value
  | 0, _ => none
  | _ + 1, .null => some .null
  | _ + 1, .boolean value => some (.boolean value)
  | _ + 1, .number numeral => numeral.integer?.map .number
  | _ + 1, .text literal => literal.text?.map .text
  | depth + 1, .list items inside =>
      ((Spelling.list items inside).list? (value? depth)).map .list
  | depth + 1, .object members inside =>
      ((Spelling.object members inside).object? (value? depth)).map .object

/-! ### Integers -/

/-- What follows the whole part of a numeral is not made of digits. -/
theorem Numeral.all_isDigit_iff (numeral : Numeral) :
    (numeral.whole.chars ++ numeral.tail).all Char.isDigit = true ↔ numeral.tail = [] := by
  rw [List.all_append, numeral.whole.all_isDigit, Bool.true_and]
  cases htail : numeral.tail with
  | nil => simp
  | cons c rest =>
      have hc : c.isDigit = false := noDigit_tail numeral (s := []) nofun c (by simp [htail])
      simp [hc]

theorem natural_numeral (numeral : Numeral) {s : List Char} (h : Follows s) :
    (natural (numeral.whole.chars ++ (numeral.tail ++ s))).toOption =
      if numeral.tail = [] then some (Nat.ofDigitChars 10 numeral.whole.chars 0, s) else none := by
  have htake : (numeral.whole.chars ++ (numeral.tail ++ s)).take
      ((numeral.whole.chars ++ (numeral.tail ++ s)).length - s.length) =
        numeral.whole.chars ++ numeral.tail := by
    rw [← List.append_assoc, List.length_append, Nat.add_sub_cancel, List.take_left]
  simp only [natural, skipNumber_chars numeral h, htake, numeral.all_isDigit_iff]
  split
  · next htail => simp [htail]
  · rfl

section

variable {c : Char} {s r : List Char}

theorem integer_minus (h : skipSpace s = '-' :: r) :
    (integer.run s).toOption = (natural r).toOption.bind fun p =>
      if p.1 = 0 then none else some (-(p.1 : Int), p.2) := by
  simp only [integer, h]
  cases natural r with
  | error fault => rfl
  | ok p =>
      dsimp only [toOption_ok, Option.bind_some]
      split <;> rfl

theorem integer_plain (h : skipSpace s = c :: r) (hc : c ≠ '-') :
    (integer.run s).toOption = (natural (c :: r)).toOption.map fun p => ((p.1 : Int), p.2) := by
  simp [integer, h, hc]

end

theorem integer_number (numeral : Numeral) {s t : List Char}
    (hs : skipSpace s = numeral.chars ++ t) (ht : Follows t) :
    (integer.run s).toOption = numeral.integer?.map (·, t) := by
  have hnatural := natural_numeral numeral ht
  rw [Numeral.chars] at hs
  rw [Numeral.integer?]
  cases hsign : numeral.negative with
  | true =>
      rw [hsign, if_pos rfl, List.append_assoc, List.singleton_append, List.append_assoc] at hs
      rw [integer_minus hs, hnatural]
      split <;> simp
      split <;> rfl
  | false =>
      obtain ⟨c, digits, hd, hdigit⟩ := numeral.whole.chars_eq_cons
      rw [hsign, if_neg Bool.false_ne_true, List.nil_append, List.append_assoc, hd,
        List.cons_append] at hs
      rw [hd, List.cons_append] at hnatural
      rw [integer_plain hs (ne_of_isDigit hdigit (by decide)), hnatural]
      split <;> simp [hd]

/-! ### Objects -/

section Objects

open Record (nextKey colon nextKey_key nextKey_comma_key nextKey_end colon_blank)

variable {item : Reader Fault α} {view : Spelling → Option α} {first : Bool} {s t : List Char}

theorem entries_end (h : nextKey first s = .ok (none, t)) : entries item first s = .ok ([], t) := by
  rw [entries]
  split <;> rename_i h1 <;> rw [h] at h1 <;> cases h1
  rfl

theorem entries_toOption {key : Option String}
    (h : (nextKey first s).toOption = key.map fun text => (some text, t)) :
    (entries item first s).toOption = key.bind fun text =>
      ((memberValue item).run t).toOption.bind fun p =>
        (entries item false p.2).toOption.map fun q => ((text, p.1) :: q.1, q.2) := by
  rw [entries]
  cases key with
  | none =>
      split <;> rename_i h1 <;> simp [h1] at h
      rfl
  | some text =>
      rw [Option.map_some, toOption_eq_some_iff] at h
      split <;> rename_i h1 <;> rw [h] at h1 <;> cases h1
      split
      · next h2 => simp [h2]
      · next a tail h2 => cases hr : entries item false tail <;> simp [h2, hr]

theorem memberValue_chars (h : Views item view) (afterKey before : Blank) (value : Spelling)
    (hs : s = afterKey.chars ++ ':' :: (before.chars ++ (value.chars ++ t))) (ht : Follows t) :
    ((memberValue item).run s).toOption = (view value).map (·, t) := by
  simp [hs, memberValue, colon_blank, Except.bind, h before value ht]

/-- A member and all that follow it are read as their views say. -/
theorem entries_member (h : Views item view) {member : Member Spelling}
    {rest : List (Member Spelling)} {inside : Blank}
    (hnext : (nextKey first s).toOption = member.key.text?.map fun text =>
      (some text, member.afterKey.chars ++ ':' :: (member.item.before.chars ++
        (member.item.value.chars ++ (member.item.after.chars ++ membersTail rest inside t)))))
    (hrest : (entries item false (member.item.after.chars ++ membersTail rest inside t)).toOption =
      (rest.mapM (Member.view? view)).map (·, t)) :
    (entries item first s).toOption =
      ((member :: rest).mapM (Member.view? view)).map (·, t) := by
  have hfollows := (follows_membersTail rest inside t).blank member.item.after
  have hvalue := memberValue_chars h member.afterKey member.item.before member.item.value rfl
    hfollows
  rw [entries_toOption hnext, hvalue, List.mapM_cons, Member.view?]
  cases member.key.text? with
  | none => rfl
  | some text =>
      cases view member.item.value with
      | none => rfl
      | some a => cases hviews : rest.mapM (Member.view? view) <;> simp [hrest, hviews]

/-- The members after the first one. -/
theorem entries_tail (h : Views item view) (rest : List (Member Spelling)) (after inside : Blank)
    (t : List Char) :
    (entries item false (after.chars ++ membersTail rest inside t)).toOption =
      (rest.mapM (Member.view? view)).map (·, t) := by
  induction rest generalizing after with
  | nil => simp [entries_end (nextKey_end false after inside t)]
  | cons member rest ih =>
      rw [membersTail_cons]
      exact entries_member h (nextKey_comma_key after member.beforeKey member.key _)
        (ih member.item.after)

/-- All members of an object. -/
theorem entries_chars (h : Views item view) (members : List (Member Spelling)) (inside : Blank)
    (t : List Char) :
    ∃ r, (Spelling.object members inside).chars ++ t = '{' :: r ∧
      (entries item true r).toOption = (members.mapM (Member.view? view)).map (·, t) := by
  cases members with
  | nil =>
      refine ⟨_, chars_object_nil inside t, ?_⟩
      have hend : nextKey true (inside.chars ++ '}' :: t) = .ok (none, t) :=
        nextKey_end true {} inside t
      simp [entries_end hend]
  | cons member rest =>
      refine ⟨_, chars_object_cons member rest inside t, ?_⟩
      exact entries_member h (nextKey_key member.beforeKey member.key _)
        (entries_tail h rest member.item.after inside t)

theorem object_chars (h : Views item view) (members : List (Member Spelling)) (inside : Blank)
    (t : List Char) :
    ((object item).run ((Spelling.object members inside).chars ++ t)).toOption =
      ((Spelling.object members inside).object? view).map (·, t) := by
  obtain ⟨r, hr, hentries⟩ := entries_chars h members inside t
  have hbrace := skipSpace_of_not_isSpace (c := '{') (by decide) r
  rw [hr]
  simp only [object, hbrace]
  exact hentries

end Objects

/-! ### Values -/

theorem map_toOption {β : Type} (reader : Reader Fault α) (f : α → β) (s : List Char) :
    ((reader.map f).run s).toOption = (reader.run s).toOption.map fun p => (f p.1, p.2) := by
  simp [Reader.map]

theorem byFirst_chars (reader : Char → Reader Fault α) (before : Blank) {value : Spelling}
    {c : Char} {tail : List Char} (h : value.chars = c :: tail) (s : List Char) :
    (byFirst reader).run (before.chars ++ (value.chars ++ s)) =
      (reader c).run (value.chars ++ s) := by
  have hspace : skipSpace (before.chars ++ (value.chars ++ s)) = value.chars ++ s :=
    (skipSpace_blank before _).trans (skipSpace_spelling value s)
  rw [h, List.cons_append] at hspace ⊢
  simp only [byFirst, hspace]

theorem form_number (item : Reader Fault Value) {c : Char} (h : c = '-' ∨ c.isDigit = true) :
    form item c = integer.map .number := by
  rcases h with rfl | hdigit
  · rfl
  · unfold form
    split
    case h_7 => rfl
    all_goals simp at hdigit

/-- Any well-formed value is read as what it stands for, down to the depth. -/
theorem views_value (depth : Nat) : Views (value depth) (Spelling.value? depth) := by
  induction depth with
  | zero => exact fun _ _ _ _ => rfl
  | succ depth ih =>
      intro before spelling rest hrest
      obtain ⟨c, tail, hchars, hopens⟩ := spelling.chars_eq_cons
      rw [value, byFirst_chars _ before hchars]
      cases spelling with
      | null =>
          cases hopens
          rfl
      | boolean b => cases b <;> rcases hopens with rfl | rfl <;> first | rfl | cases hchars
      | number numeral =>
          have hspace := skipSpace_spelling (.number numeral) rest
          rw [form_number _ hopens, map_toOption, integer_number numeral hspace hrest]
          simp [Spelling.value?, Function.comp_def]
      | text literal =>
          cases hopens
          exact (views_text.map Value.text).run (.text literal) hrest
      | list items inside =>
          cases hopens
          exact ((views_list ih).map Value.list).run (.list items inside) hrest
      | object members inside =>
          cases hopens
          rw [form, map_toOption, object_chars ih members inside rest]
          simp [Spelling.value?, Function.comp_def]

/-- A well-formed document is read as what it stands for. -/
theorem ofText_toOption (doc : Item Spelling) :
    (Value.ofText doc.text).toOption = doc.value.value? doc.text.length := by
  have hfollows : Follows doc.after.chars := by
    rw [← List.append_nil doc.after.chars]
    exact Follows.blank (s := []) nofun doc.after
  exact document_toOption (views_value doc.text.length doc.before doc.value hfollows)

end MockForge.Json

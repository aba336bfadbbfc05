import MockForge.Toml.Value

/-!
# Spaces, texts and keys

The parts of a TOML document below its values: blanks, comments and line ends, the four kinds of
quoted text, and keys.
-/

namespace MockForge.Toml

/-! ## Spaces and lines -/

/-- Blank within a line. -/
def isSpace (c : Char) : Bool := c = ' ' || c = '\t'

/-- The text from its first character that is not blank. -/
def skipSpace (s : List Char) : List Char := s.dropWhile isSpace

/-- The characters that comments and single lines of text may hold: all but the controls, and of
those the tab. -/
def isLineChar (c : Char) : Bool := c = '\t' || (0x20 ≤ c.toNat && c.toNat ≠ 0x7f)

/-- The text after a comment, if it starts with one. -/
def skipComment : List Char → List Char
  | '#' :: rest => rest.dropWhile isLineChar
  | s => s

/-- The text after a line end, if it starts with one. -/
def newline? : List Char → Option (List Char)
  | '\n' :: rest => some rest
  | '\r' :: '\n' :: rest => some rest
  | _ => none

theorem skipSpace_length_le (s : List Char) : (skipSpace s).length ≤ s.length := by
  simpa [skipSpace] using (List.dropWhile_sublist (l := s) isSpace).length_le

theorem skipComment_length_le (s : List Char) : (skipComment s).length ≤ s.length := by
  unfold skipComment
  split
  · next rest =>
    have := (List.dropWhile_sublist (l := rest) isLineChar).length_le
    simp only [List.length_cons]
    omega
  · exact Nat.le_refl _

theorem newline?_shortens {s r : List Char} (h : newline? s = some r) : r.length < s.length := by
  unfold newline? at h
  split at h
  · simp_all
  · simp only [Option.some.injEq] at h
    simp only [← h, List.length_cons]
    omega
  · simp at h

/-- The rest of a line after all that counts: blanks and a comment, then a line end or the end of
the text. -/
def lineEnd (s : List Char) : Except Malformed (List Char) :=
  match skipComment (skipSpace s) with
  | [] => .ok []
  | rest =>
      match newline? rest with
      | some rest => .ok rest
      | none => .error .malformed

theorem lineEnd_length_le {s r : List Char} (h : lineEnd s = .ok r) : r.length ≤ s.length := by
  have h0 := skipSpace_length_le s
  have h1 := skipComment_length_le (skipSpace s)
  unfold lineEnd at h
  split at h
  · simp only [Except.ok.injEq] at h
    simp [← h]
  · split at h
    · next hn =>
      have := newline?_shortens hn
      simp only [Except.ok.injEq] at h
      rw [← h]
      omega
    · simp at h

/-- Passes over blanks, comments and line ends. -/
def skipLines (s : List Char) : List Char :=
  match _h : newline? (skipComment (skipSpace s)) with
  | some tail => skipLines tail
  | none => skipComment (skipSpace s)
termination_by s.length
decreasing_by
  have h0 := skipSpace_length_le s
  have h1 := skipComment_length_le (skipSpace s)
  have h2 := newline?_shortens _h
  omega

theorem skipLines_length_le (s : List Char) : (skipLines s).length ≤ s.length := by
  fun_induction skipLines s with
  | case1 s tail hn ih =>
      have h0 := skipSpace_length_le s
      have h1 := skipComment_length_le (skipSpace s)
      have h2 := newline?_shortens hn
      omega
  | case2 s hn =>
      have h0 := skipSpace_length_le s
      have h1 := skipComment_length_le (skipSpace s)
      omega

/-! ## Quoted texts -/

/-- The value of a hexadecimal digit of either case. -/
def hexValue? (c : Char) : Option Nat :=
  if c.isDigit then some (c.toNat - '0'.toNat)
  else if 'a' ≤ c && c ≤ 'f' then some (c.toNat - 'a'.toNat + 10)
  else if 'A' ≤ c && c ≤ 'F' then some (c.toNat - 'A'.toNat + 10)
  else none

/-- The number that hexadecimal digits spell. -/
def spelt (digits : List Nat) : Nat := digits.foldl (fun n d => 16 * n + d) 0

/-- The character with the number that the first `count` characters spell. Halves of surrogate
pairs are no characters. -/
def numbered (count : Nat) (s : List Char) : Except Malformed (Char × List Char) :=
  match (s.take count).mapM hexValue? with
  | none => .error .malformed
  | some digits =>
      if digits.length = count && (spelt digits).isValidChar then
        .ok (Char.ofNat (spelt digits), s.drop count)
      else .error .malformed

theorem numbered_length_le {count : Nat} {s r : List Char} {c : Char}
    (h : numbered count s = .ok (c, r)) : r.length ≤ s.length := by
  unfold numbered at h
  split at h
  · simp at h
  · split at h
    · simp only [Except.ok.injEq, Prod.mk.injEq] at h
      simp [← h.2]
    · simp at h

/-- The character of an escape, given what follows its backslash. -/
def unescape : List Char → Except Malformed (Char × List Char)
  | 'b' :: rest => .ok ('\x08', rest)
  | 't' :: rest => .ok ('\t', rest)
  | 'n' :: rest => .ok ('\n', rest)
  | 'f' :: rest => .ok ('\x0c', rest)
  | 'r' :: rest => .ok ('\r', rest)
  | 'e' :: rest => .ok ('\x1b', rest)
  | '"' :: rest => .ok ('"', rest)
  | '\\' :: rest => .ok ('\\', rest)
  | 'x' :: rest => numbered 2 rest
  | 'u' :: rest => numbered 4 rest
  | 'U' :: rest => numbered 8 rest
  | _ => .error .malformed

theorem unescape_shortens {s r : List Char} {c : Char} (h : unescape s = .ok (c, r)) :
    r.length < s.length := by
  unfold unescape at h
  split at h
  case h_9 | h_10 | h_11 =>
    have := numbered_length_le h
    simp only [List.length_cons]
    omega
  case h_12 => simp at h
  all_goals
    simp only [Except.ok.injEq, Prod.mk.injEq] at h
    simp [← h.2]

/-- A character in front of what a reader gives. -/
private def consChar (c : Char) (read : Except Malformed (List Char × List Char)) :
    Except Malformed (List Char × List Char) :=
  read.map fun p => (c :: p.1, p.2)

private theorem consChar_eq_ok {c : Char} {read : Except Malformed (List Char × List Char)}
    {cs r : List Char} (h : consChar c read = .ok (cs, r)) : ∃ cs', read = .ok (cs', r) := by
  cases hr : read with
  | error fault => simp [hr, consChar, Except.map] at h
  | ok p =>
      simp only [hr, consChar, Except.map, Except.ok.injEq, Prod.mk.injEq] at h
      exact ⟨p.1, by rw [← h.2]⟩

/-- The rest of a text in double quotes on one line. -/
def basicTail (s : List Char) : Except Malformed (List Char × List Char) :=
  match s with
  | [] => .error .malformed
  | '"' :: rest => .ok ([], rest)
  | '\\' :: rest =>
      match _h : unescape rest with
      | .error fault => .error fault
      | .ok (c, tail) => consChar c (basicTail tail)
  | c :: rest => if isLineChar c then consChar c (basicTail rest) else .error .malformed
termination_by s.length
decreasing_by
  · have := unescape_shortens ‹_›
    simp only [List.length_cons]
    omega
  · simp

theorem basicTail_shortens {s cs r : List Char} (h : basicTail s = .ok (cs, r)) :
    r.length < s.length := by
  fun_induction basicTail s generalizing cs with
  | case1 => simp at h
  | case2 => simp_all
  | case3 => simp at h
  | case4 rest c tail hu ih =>
      obtain ⟨_, h⟩ := consChar_eq_ok h
      have h1 := unescape_shortens hu
      have h2 := ih h
      simp only [List.length_cons]
      omega
  | case5 c rest _ _ _ ih =>
      obtain ⟨_, h⟩ := consChar_eq_ok h
      have h2 := ih h
      simp only [List.length_cons]
      omega
  | case6 => simp at h

/-- The rest of a text in single quotes on one line. -/
def literalTail : List Char → Except Malformed (List Char × List Char)
  | [] => .error .malformed
  | '\'' :: rest => .ok ([], rest)
  | c :: rest => if isLineChar c then consChar c (literalTail rest) else .error .malformed

theorem literalTail_shortens {s cs r : List Char} (h : literalTail s = .ok (cs, r)) :
    r.length < s.length := by
  fun_induction literalTail s generalizing cs with
  | case1 => simp at h
  | case2 => simp_all
  | case3 c rest _ _ ih =>
      obtain ⟨_, h⟩ := consChar_eq_ok h
      have h2 := ih h
      simp only [List.length_cons]
      omega
  | case4 => simp at h

/-- The end of a text between threefold quotes: three of them, and up to two more before them that
belong to the text. -/
def closingQuotes? (quote : Char) (s : List Char) : Option (List Char × List Char) :=
  let count := min (s.takeWhile (· = quote)).length 5
  if 3 ≤ count then some (List.replicate (count - 3) quote, s.drop count) else none

theorem closingQuotes?_shortens {quote : Char} {s cs r : List Char}
    (h : closingQuotes? quote s = some (cs, r)) : r.length < s.length := by
  have hs := (List.takeWhile_sublist (l := s) (· = quote)).length_le
  unfold closingQuotes? at h
  simp only at h
  split at h
  · next hc =>
    simp only [Option.some.injEq, Prod.mk.injEq] at h
    rw [← h.2, List.length_drop]
    omega
  · simp at h

/-- The text from the next line on without its blanks and empty lines, if nothing but blanks is
left of this line: what a backslash at the end of a line takes away. -/
def continuation? (s : List Char) : Option (List Char) :=
  match newline? (skipSpace s) with
  | none => none
  | some rest => some (rest.dropWhile fun c => isSpace c || c = '\n' || c = '\r')

theorem continuation?_shortens {s r : List Char} (h : continuation? s = some r) :
    r.length < s.length := by
  have h0 := skipSpace_length_le s
  unfold continuation? at h
  split at h
  · simp at h
  · next rest hn =>
    have h1 := newline?_shortens hn
    simp only [Option.some.injEq] at h
    have h2 := (List.dropWhile_sublist (l := rest)
      (fun c => isSpace c || c = '\n' || c = '\r')).length_le
    rw [h] at h2
    omega

/-- The rest of a text in threefold double quotes. -/
def longBasicTail (s : List Char) : Except Malformed (List Char × List Char) :=
  match closingQuotes? '"' s with
  | some closing => .ok closing
  | none =>
      match s with
      | [] => .error .malformed
      | '\\' :: rest =>
          match _h : continuation? rest with
          | some tail => longBasicTail tail
          | none =>
              match _h1 : unescape rest with
              | .error fault => .error fault
              | .ok (c, tail) => consChar c (longBasicTail tail)
      | '\r' :: '\n' :: rest => consChar '\r' (consChar '\n' (longBasicTail rest))
      | c :: rest =>
          if c = '\n' || isLineChar c then consChar c (longBasicTail rest) else .error .malformed
termination_by s.length
decreasing_by
  · have := continuation?_shortens ‹_›
    simp only [List.length_cons]
    omega
  · have := unescape_shortens ‹_›
    simp only [List.length_cons]
    omega
  · simp only [List.length_cons]
    omega
  · simp

theorem longBasicTail_shortens {s cs r : List Char} (h : longBasicTail s = .ok (cs, r)) :
    r.length < s.length := by
  fun_induction longBasicTail s generalizing cs with
  | case1 s closing hc =>
      simp only [Except.ok.injEq] at h
      exact closingQuotes?_shortens (h ▸ hc)
  | case2 => simp at h
  | case3 rest tail ht _ ih =>
      have h1 := continuation?_shortens ht
      have h2 := ih h
      simp only [List.length_cons]
      omega
  | case4 => simp at h
  | case5 rest _ c tail hu _ ih =>
      obtain ⟨_, h⟩ := consChar_eq_ok h
      have h1 := unescape_shortens hu
      have h2 := ih h
      simp only [List.length_cons]
      omega
  | case6 rest _ ih =>
      obtain ⟨_, h⟩ := consChar_eq_ok h
      obtain ⟨_, h⟩ := consChar_eq_ok h
      have h2 := ih h
      simp only [List.length_cons]
      omega
  | case7 c rest _ _ _ _ ih =>
      obtain ⟨_, h⟩ := consChar_eq_ok h
      have h2 := ih h
      simp only [List.length_cons]
      omega
  | case8 => simp at h

/-- The rest of a text in threefold single quotes. -/
def longLiteralTail (s : List Char) : Except Malformed (List Char × List Char) :=
  match closingQuotes? '\'' s with
  | some closing => .ok closing
  | none =>
      match s with
      | [] => .error .malformed
      | '\r' :: '\n' :: rest => consChar '\r' (consChar '\n' (longLiteralTail rest))
      | c :: rest =>
          if c = '\n' || isLineChar c then consChar c (longLiteralTail rest)
          else .error .malformed

theorem longLiteralTail_shortens {s cs r : List Char} (h : longLiteralTail s = .ok (cs, r)) :
    r.length < s.length := by
  fun_induction longLiteralTail s generalizing cs with
  | case1 s closing hc =>
      simp only [Except.ok.injEq] at h
      exact closingQuotes?_shortens (h ▸ hc)
  | case2 => simp at h
  | case3 rest _ ih =>
      obtain ⟨_, h⟩ := consChar_eq_ok h
      obtain ⟨_, h⟩ := consChar_eq_ok h
      have h2 := ih h
      simp only [List.length_cons]
      omega
  | case4 c rest _ _ _ ih =>
      obtain ⟨_, h⟩ := consChar_eq_ok h
      have h2 := ih h
      simp only [List.length_cons]
      omega
  | case5 => simp at h

/-- A line end right after the opening threefold quotes is no part of the text. -/
def withoutFirstNewline (s : List Char) : List Char := (newline? s).getD s

theorem withoutFirstNewline_length_le (s : List Char) :
    (withoutFirstNewline s).length ≤ s.length := by
  unfold withoutFirstNewline
  cases h : newline? s with
  | none => simp
  | some r =>
      have := newline?_shortens h
      simp only [Option.getD_some]
      omega

/-- The quoted text at the front of a text, of any of the four kinds. -/
def quotedText : List Char → Except Malformed (List Char × List Char)
  | '"' :: '"' :: '"' :: rest => longBasicTail (withoutFirstNewline rest)
  | '"' :: rest => basicTail rest
  | '\'' :: '\'' :: '\'' :: rest => longLiteralTail (withoutFirstNewline rest)
  | '\'' :: rest => literalTail rest
  | _ => .error .malformed

theorem quotedText_shortens {s cs r : List Char} (h : quotedText s = .ok (cs, r)) :
    r.length < s.length := by
  unfold quotedText at h
  split at h
  · next rest =>
    have h0 := withoutFirstNewline_length_le rest
    have h1 := longBasicTail_shortens h
    simp only [List.length_cons]
    omega
  · have := basicTail_shortens h
    simp only [List.length_cons]
    omega
  · next rest =>
    have h0 := withoutFirstNewline_length_le rest
    have h1 := longLiteralTail_shortens h
    simp only [List.length_cons]
    omega
  · have := literalTail_shortens h
    simp only [List.length_cons]
    omega
  · simp at h

/-! ## Keys -/

/-- The characters of a key without quotes. -/
def isBareChar (c : Char) : Bool := c.isAlphanum || c = '_' || c = '-'

/-- A single key: bare, or quoted on one line. -/
def simpleKey (s : List Char) : Except Malformed (String × List Char) :=
  match s with
  | '"' :: rest => (basicTail rest).map fun p => (String.ofList p.1, p.2)
  | '\'' :: rest => (literalTail rest).map fun p => (String.ofList p.1, p.2)
  | _ =>
      match s.takeWhile isBareChar with
      | [] => .error .malformed
      | key => .ok (String.ofList key, s.dropWhile isBareChar)

private theorem mapKey_rest {read : Except Malformed (List Char × List Char)} {key : String}
    {r : List Char} (h : (read.map fun p => (String.ofList p.1, p.2)) = .ok (key, r)) :
    ∃ cs, read = .ok (cs, r) := by
  cases hr : read with
  | error fault => simp [hr, Except.map] at h
  | ok p =>
      simp only [hr, Except.map, Except.ok.injEq, Prod.mk.injEq] at h
      exact ⟨p.1, by rw [← h.2]⟩

theorem simpleKey_shortens {s r : List Char} {key : String} (h : simpleKey s = .ok (key, r)) :
    r.length < s.length := by
  unfold simpleKey at h
  split at h
  · obtain ⟨_, h⟩ := mapKey_rest h
    have := basicTail_shortens h
    simp only [List.length_cons]
    omega
  · obtain ⟨_, h⟩ := mapKey_rest h
    have := literalTail_shortens h
    simp only [List.length_cons]
    omega
  · have hs := congrArg List.length (List.takeWhile_append_dropWhile (p := isBareChar) (l := s))
    rw [List.length_append] at hs
    split at h
    · simp at h
    · next hk =>
      simp only [Except.ok.injEq, Prod.mk.injEq] at h
      have := List.length_pos_iff.2 hk
      rw [← h.2]
      omega

/-- The keys that follow a key after dots. -/
def keyTail (s : List Char) : Except Malformed (List String × List Char) :=
  match _h : skipSpace s with
  | '.' :: rest =>
      match _h1 : simpleKey (skipSpace rest) with
      | .error fault => .error fault
      | .ok (key, tail) => (keyTail tail).map fun p => (key :: p.1, p.2)
  | _ => .ok ([], s)
termination_by s.length
decreasing_by
  have h0 := skipSpace_length_le s
  have h1 := skipSpace_length_le rest
  have h2 := simpleKey_shortens _h1
  rw [_h, List.length_cons] at h0
  omega

theorem keyTail_length_le {s r : List Char} {keys : List String}
    (h : keyTail s = .ok (keys, r)) : r.length ≤ s.length := by
  fun_induction keyTail s generalizing keys with
  | case1 => simp at h
  | case2 s rest hs key tail hk ih =>
      have h0 := skipSpace_length_le s
      have h1 := skipSpace_length_le rest
      have h2 := simpleKey_shortens hk
      rw [hs, List.length_cons] at h0
      cases ht : keyTail tail with
      | error fault => simp [ht, Except.map] at h
      | ok p =>
          have h3 := ih (show keyTail tail = .ok (p.1, r) by
            simp only [ht, Except.map, Except.ok.injEq, Prod.mk.injEq] at h
            simp [ht, ← h.2])
          omega
  | case3 => simp_all

/-- A key of one or more parts. -/
def key (s : List Char) : Except Malformed (List String × List Char) :=
  match simpleKey s with
  | .error fault => .error fault
  | .ok (first, rest) => (keyTail rest).map fun p => (first :: p.1, p.2)

theorem key_shortens {s r : List Char} {keys : List String} (h : key s = .ok (keys, r)) :
    r.length < s.length := by
  unfold key at h
  split at h
  · simp at h
  · next first rest hk =>
    have h1 := simpleKey_shortens hk
    cases ht : keyTail rest with
    | error fault => simp [ht, Except.map] at h
    | ok p =>
        have h2 := keyTail_length_le ht
        simp only [ht, Except.map, Except.ok.injEq, Prod.mk.injEq] at h
        rw [← h.2]
        omega

end MockForge.Toml

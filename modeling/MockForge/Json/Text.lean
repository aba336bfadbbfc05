import MockForge.Json.Fault

/-!
# Reading text literals

Escapes by letter and by number; two numbered escapes that form a surrogate pair stand for one
character, and half a pair for none. A literal that is only passed over may hold any four digits.
-/

namespace MockForge.Json

/-- Blank between the parts of a document: space, tab and the two line ends. -/
def isSpace (c : Char) : Bool := c = ' ' || c = '\n' || c = '\t' || c = '\r'

/-- The text from its first character that is not blank. -/
def skipSpace (s : List Char) : List Char := s.dropWhile isSpace

theorem skipSpace_length_le (s : List Char) : (skipSpace s).length ≤ s.length := by
  simpa [skipSpace] using (List.dropWhile_sublist (l := s) isSpace).length_le

/-- The value of a hexadecimal digit of either case. -/
def hexValue? (c : Char) : Option Nat :=
  if c.isDigit then some (c.toNat - '0'.toNat)
  else if 'a' ≤ c && c ≤ 'f' then some (c.toNat - 'a'.toNat + 10)
  else if 'A' ≤ c && c ≤ 'F' then some (c.toNat - 'A'.toNat + 10)
  else none

/-- How many bytes a text takes in UTF-8. -/
def byteLength (s : List Char) : Nat := s.foldr (fun c size => c.utf8Size + size) 0

/-- The number behind the letter of a numbered escape. Fewer than four bytes before the end of the
whole text are no malformed escape but a text that ends too early. -/
def hexUnit (s : List Char) : Except Fault (Nat × List Char) :=
  if byteLength (s.take 4) < 4 then .error .endOfText
  else
    match s with
    | a :: b :: c :: d :: rest =>
        match hexValue? a, hexValue? b, hexValue? c, hexValue? d with
        | some a, some b, some c, some d => .ok (((a * 16 + b) * 16 + c) * 16 + d, rest)
        | _, _, _, _ => .error .malformed
    | _ => .error .malformed

theorem hexUnit_shortens {s : List Char} {n : Nat} {r : List Char}
    (h : hexUnit s = .ok (n, r)) : r.length < s.length := by
  unfold hexUnit at h
  split at h
  · simp at h
  · split at h
    · split at h
      · simp only [Except.ok.injEq, Prod.mk.injEq] at h
        simp only [← h.2, List.length_cons]
        omega
      · simp at h
    · simp at h

/-- The first half of a surrogate pair. -/
def isHighSurrogate (n : Nat) : Bool := 0xd800 ≤ n && n ≤ 0xdbff

/-- The second half of a surrogate pair. -/
def isLowSurrogate (n : Nat) : Bool := 0xdc00 ≤ n && n ≤ 0xdfff

/-- The character that a surrogate pair stands for. -/
def pairedChar (high low : Nat) : Char :=
  Char.ofNat (0x10000 + (high - 0xd800) * 0x400 + (low - 0xdc00))

/-- The second half of a surrogate pair, which has to follow the first at once. -/
def pairedEscape (high : Nat) : List Char → Except Fault (Char × List Char)
  | [] => .error .endOfText
  | ['\\'] => .error .endOfText
  | '\\' :: 'u' :: rest =>
      match hexUnit rest with
      | .error fault => .error fault
      | .ok (low, rest) =>
          if isLowSurrogate low then .ok (pairedChar high low, rest) else .error .malformed
  | _ => .error .malformed

theorem pairedEscape_shortens {high : Nat} {s : List Char} {c : Char} {r : List Char}
    (h : pairedEscape high s = .ok (c, r)) : r.length < s.length := by
  unfold pairedEscape at h
  split at h
  · simp at h
  · simp at h
  · next rest =>
    cases hr : hexUnit rest with
    | error fault => simp [hr] at h
    | ok p =>
      have := hexUnit_shortens hr
      simp only [hr] at h
      split at h
      · simp only [Except.ok.injEq, Prod.mk.injEq] at h
        simp only [← h.2, List.length_cons]
        omega
      · simp at h
  · simp at h

/-- The character of an escape, given what follows its backslash. -/
def unescape : List Char → Except Fault (Char × List Char)
  | [] => .error .endOfText
  | '"' :: rest => .ok ('"', rest)
  | '\\' :: rest => .ok ('\\', rest)
  | '/' :: rest => .ok ('/', rest)
  | 'b' :: rest => .ok ('\x08', rest)
  | 'f' :: rest => .ok ('\x0c', rest)
  | 'n' :: rest => .ok ('\n', rest)
  | 'r' :: rest => .ok ('\r', rest)
  | 't' :: rest => .ok ('\t', rest)
  | 'u' :: rest =>
      match hexUnit rest with
      | .error fault => .error fault
      | .ok (n, rest) =>
          if isLowSurrogate n then .error .malformed
          else if isHighSurrogate n then pairedEscape n rest
          else .ok (Char.ofNat n, rest)
  | _ => .error .malformed

theorem unescape_shortens {s : List Char} {c : Char} {r : List Char}
    (h : unescape s = .ok (c, r)) : r.length < s.length := by
  unfold unescape at h
  split at h
  case h_10 rest =>
    cases hr : hexUnit rest with
    | error fault => simp [hr] at h
    | ok p =>
      have hp := hexUnit_shortens hr
      simp only [hr] at h
      split at h
      · simp at h
      · split at h
        · have := pairedEscape_shortens h
          simp only [List.length_cons]
          omega
        · simp only [Except.ok.injEq, Prod.mk.injEq] at h
          simp only [← h.2, List.length_cons]
          omega
  all_goals first
    | (simp only [Except.ok.injEq, Prod.mk.injEq] at h; simp [← h.2])
    | simp at h

/-- The rest of a literal after its opening quote: its characters, up to the closing quote. -/
def literalTail (s : List Char) : Except Fault (List Char × List Char) :=
  match s with
  | [] => .error .endOfText
  | '"' :: rest => .ok ([], rest)
  | '\\' :: rest =>
      match _h : unescape rest with
      | .error fault => .error fault
      | .ok (c, tail) =>
          match literalTail tail with
          | .error fault => .error fault
          | .ok (cs, r) => .ok (c :: cs, r)
  | c :: rest =>
      if c.toNat < 0x20 then .error .malformed
      else
        match literalTail rest with
        | .error fault => .error fault
        | .ok (cs, r) => .ok (c :: cs, r)
termination_by s.length
decreasing_by
  · have := unescape_shortens ‹_›
    simp only [List.length_cons]
    omega
  · simp

theorem literalTail_shortens {s cs r : List Char} (h : literalTail s = .ok (cs, r)) :
    r.length < s.length := by
  fun_induction literalTail s generalizing cs r with
  | case1 => simp at h
  | case2 => simp_all
  | case3 => simp at h
  | case4 => simp at h
  | case5 rest c tail hu cs' r' ht ih =>
      have h1 := unescape_shortens hu
      have h2 := ih ht
      simp only [Except.ok.injEq, Prod.mk.injEq] at h
      simp only [← h.2, List.length_cons]
      omega
  | case6 => simp at h
  | case7 => simp at h
  | case8 c rest _ _ _ cs' r' ht ih =>
      have h2 := ih ht
      simp only [Except.ok.injEq, Prod.mk.injEq] at h
      simp only [← h.2, List.length_cons]
      omega

/-- Passes over the rest of a literal without keeping it. -/
def skipLiteral : List Char → Except Fault (List Char)
  | [] => .error .endOfText
  | '"' :: rest => .ok rest
  | '\\' :: 'u' :: rest =>
      match _h : hexUnit rest with
      | .error fault => .error fault
      | .ok (_, tail) => skipLiteral tail
  | ['\\'] => .error .endOfText
  | '\\' :: c :: rest =>
      if ['"', '\\', '/', 'b', 'f', 'n', 'r', 't'].contains c then skipLiteral rest
      else .error .malformed
  | c :: rest => if c.toNat < 0x20 then .error .malformed else skipLiteral rest
termination_by s => s.length
decreasing_by
  · have := hexUnit_shortens ‹_›
    simp only [List.length_cons]
    omega
  · simp only [List.length_cons]; omega
  · simp

theorem skipLiteral_shortens {s r : List Char} (h : skipLiteral s = .ok r) :
    r.length < s.length := by
  fun_induction skipLiteral s generalizing r with
  | case1 => simp at h
  | case2 => simp_all
  | case3 => simp at h
  | case4 rest n tail hu ih =>
      have h1 := hexUnit_shortens hu
      have h2 := ih h
      simp only [List.length_cons]
      omega
  | case5 => simp at h
  | case6 _ _ _ _ ih =>
      have h2 := ih h
      simp only [List.length_cons]
      omega
  | case7 => simp at h
  | case8 => simp at h
  | case9 _ _ _ _ _ _ _ ih =>
      have h2 := ih h
      simp only [List.length_cons]
      omega

end MockForge.Json

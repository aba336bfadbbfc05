import MockForge.Json.Text

/-!
# Passing over values

The value of a member that nobody asked for is checked for its form and dropped. The brackets that
are still open are kept as a list, so no nesting is too deep, and numbers may be of any size.
-/

namespace MockForge.Json

/-- An open bracket of a value that is passed over. -/
inductive Bracket where
  | list
  | object
  deriving DecidableEq, Repr

/-- Passes over the remaining letters of a word. -/
def skipWord : List Char → List Char → Except Fault (List Char)
  | [], s => .ok s
  | _ :: _, [] => .error .endOfText
  | c :: word, d :: s => if c = d then skipWord word s else .error .malformed

theorem skipWord_length_le {word s r : List Char} (h : skipWord word s = .ok r) :
    r.length ≤ s.length := by
  induction word generalizing s with
  | nil => simp_all [skipWord]
  | cons c word ih =>
      cases s with
      | nil => simp [skipWord] at h
      | cons d s =>
          simp only [skipWord] at h
          split at h
          · have := ih h
            simp only [List.length_cons]
            omega
          · simp at h

/-- Passes over one or more digits. -/
def skipDigits (s : List Char) : Except Fault (List Char) :=
  match s.takeWhile Char.isDigit with
  | [] => .error .malformed
  | _ => .ok (s.dropWhile Char.isDigit)

/-- Passes over the exponent of a number, if it has one. -/
def skipExponent (s : List Char) : Except Fault (List Char) :=
  match s with
  | 'e' :: rest | 'E' :: rest =>
      match rest with
      | '+' :: rest | '-' :: rest => skipDigits rest
      | _ => skipDigits rest
  | _ => .ok s

/-- Passes over the fraction of a number, if it has one, and what follows it. -/
def skipFraction (s : List Char) : Except Fault (List Char) :=
  match s with
  | '.' :: rest => (skipDigits rest).bind skipExponent
  | _ => skipExponent s

/-- Passes over a number, its sign apart. -/
def skipNumber (s : List Char) : Except Fault (List Char) :=
  match s with
  | '0' :: rest =>
      match rest with
      | c :: _ => if c.isDigit then .error .malformed else skipFraction rest
      | [] => .ok []
  | _ => (skipDigits s).bind skipFraction

theorem skipDigits_shortens {s r : List Char} (h : skipDigits s = .ok r) :
    r.length < s.length := by
  have hs := congrArg List.length (List.takeWhile_append_dropWhile (p := Char.isDigit) (l := s))
  rw [List.length_append] at hs
  unfold skipDigits at h
  split at h
  · simp at h
  · next hd =>
    simp only [Except.ok.injEq] at h
    have := List.length_pos_iff.2 hd
    subst h
    omega

theorem skipExponent_length_le {s r : List Char} (h : skipExponent s = .ok r) :
    r.length ≤ s.length := by
  unfold skipExponent at h
  split at h
  · split at h <;> have := skipDigits_shortens h <;> simp_all <;> omega
  · split at h <;> have := skipDigits_shortens h <;> simp_all <;> omega
  · simp_all

theorem skipFraction_length_le {s r : List Char} (h : skipFraction s = .ok r) :
    r.length ≤ s.length := by
  unfold skipFraction at h
  split at h
  · next rest =>
    cases hd : skipDigits rest with
    | error fault => simp [hd, Except.bind] at h
    | ok tail =>
        have h1 := skipDigits_shortens hd
        have h2 := skipExponent_length_le (s := tail) (by simpa [hd, Except.bind] using h)
        simp only [List.length_cons]
        omega
  · exact skipExponent_length_le h

theorem skipNumber_shortens {s r : List Char} (h : skipNumber s = .ok r) :
    r.length < s.length := by
  unfold skipNumber at h
  split at h
  · split at h
    · split at h
      · simp at h
      · have := skipFraction_length_le h
        simp only [List.length_cons] at this ⊢
        omega
    · simp only [Except.ok.injEq] at h
      simp [← h]
  · cases hd : skipDigits s with
    | error fault => simp [hd, Except.bind] at h
    | ok tail =>
        have h1 := skipDigits_shortens hd
        have h2 := skipFraction_length_le (s := tail) (by simpa [hd, Except.bind] using h)
        omega

/-- Passes over a word, a number or a text. -/
def skipScalar : List Char → Except Fault (List Char)
  | 'n' :: rest => skipWord "ull".toList rest
  | 't' :: rest => skipWord "rue".toList rest
  | 'f' :: rest => skipWord "alse".toList rest
  | '"' :: rest => skipLiteral rest
  | '-' :: rest => skipNumber rest
  | c :: rest => if c.isDigit then skipNumber (c :: rest) else .error .malformed
  | [] => .error .endOfText

theorem skipScalar_shortens {s r : List Char} (h : skipScalar s = .ok r) :
    r.length < s.length := by
  unfold skipScalar at h
  split at h
  · have := skipWord_length_le h; simp only [List.length_cons]; omega
  · have := skipWord_length_le h; simp only [List.length_cons]; omega
  · have := skipWord_length_le h; simp only [List.length_cons]; omega
  · have := skipLiteral_shortens h; simp only [List.length_cons]; omega
  · have := skipNumber_shortens h; simp only [List.length_cons]; omega
  · split at h
    · exact skipNumber_shortens h
    · simp at h
  · simp at h

/-- Passes over the key of a member and the colon after it. -/
def skipKey (s : List Char) : Except Fault (List Char) :=
  match skipSpace s with
  | '"' :: rest =>
      match skipLiteral rest with
      | .error fault => .error fault
      | .ok rest =>
          match skipSpace rest with
          | ':' :: rest => .ok rest
          | [] => .error .endOfText
          | _ => .error .malformed
  | [] => .error .endOfText
  | _ => .error .malformed

theorem skipKey_shortens {s r : List Char} (h : skipKey s = .ok r) : r.length < s.length := by
  unfold skipKey at h
  have h0 := skipSpace_length_le s
  split at h
  · next rest hs =>
    rw [hs] at h0
    split at h
    · simp at h
    · next tail ht =>
      have h1 := skipLiteral_shortens ht
      have h2 := skipSpace_length_le tail
      split at h
      · next hc =>
        rw [hc] at h2
        simp only [Except.ok.injEq] at h
        subst h
        simp only [List.length_cons] at h0 h2
        omega
      · simp at h
      · simp at h
  · simp at h
  · simp at h

mutual

/-- Passes over a value inside the open brackets, and over all that closes them. -/
def skipValue (openBrackets : List Bracket) (s : List Char) : Except Fault (List Char) :=
  match _h : skipSpace s with
  | [] => .error .endOfText
  | '[' :: rest =>
      match _h1 : skipSpace rest with
      | ']' :: tail => skipClosing openBrackets tail
      | [] => .error .endOfText
      | tail => skipValue (.list :: openBrackets) tail
  | '{' :: rest =>
      match _h2 : skipSpace rest with
      | '}' :: tail => skipClosing openBrackets tail
      | tail =>
          match _h3 : skipKey tail with
          | .error fault => .error fault
          | .ok tail => skipValue (.object :: openBrackets) tail
  | c :: rest =>
      match _h4 : skipScalar (c :: rest) with
      | .error fault => .error fault
      | .ok tail => skipClosing openBrackets tail
termination_by 2 * s.length + 1
decreasing_by
  · have h0 := skipSpace_length_le s
    have h1 := skipSpace_length_le rest
    simp only [_h, _h1, List.length_cons] at h0 h1
    omega
  · have h0 := skipSpace_length_le s
    have h1 := skipSpace_length_le rest
    rw [_h1] at h1
    simp only [_h, List.length_cons] at h0
    omega
  · have h0 := skipSpace_length_le s
    have h1 := skipSpace_length_le rest
    simp only [_h, _h2, List.length_cons] at h0 h1
    omega
  · have h0 := skipSpace_length_le s
    have h1 := skipSpace_length_le rest
    have h2 := skipKey_shortens _h3
    rw [_h2] at h1
    simp only [_h, List.length_cons] at h0
    omega
  · have h0 := skipSpace_length_le s
    have h1 := skipScalar_shortens _h4
    simp only [_h, List.length_cons] at h0 h1
    omega

/-- What follows a value inside the open brackets: the next item or member, or a closing
bracket. -/
def skipClosing (openBrackets : List Bracket) (s : List Char) : Except Fault (List Char) :=
  match openBrackets with
  | [] => .ok s
  | .list :: outer =>
      match _h : skipSpace s with
      | ',' :: rest => skipValue (.list :: outer) rest
      | ']' :: rest => skipClosing outer rest
      | [] => .error .endOfText
      | _ => .error .malformed
  | .object :: outer =>
      match _h : skipSpace s with
      | ',' :: rest =>
          match _h1 : skipKey rest with
          | .error fault => .error fault
          | .ok tail => skipValue (.object :: outer) tail
      | '}' :: rest => skipClosing outer rest
      | [] => .error .endOfText
      | _ => .error .malformed
termination_by 2 * s.length
decreasing_by
  · have h0 := skipSpace_length_le s
    simp only [_h, List.length_cons] at h0
    omega
  · have h0 := skipSpace_length_le s
    simp only [_h, List.length_cons] at h0
    omega
  · have h0 := skipSpace_length_le s
    have h1 := skipKey_shortens _h1
    simp only [_h, List.length_cons] at h0
    omega
  · have h0 := skipSpace_length_le s
    simp only [_h, List.length_cons] at h0
    omega

end

mutual

/-- What is left after a value is shorter than what was there before it. -/
theorem skipValue_shortens {openBrackets : List Bracket} {s r : List Char}
    (h : skipValue openBrackets s = .ok r) : r.length < s.length := by
  have h0 := skipSpace_length_le s
  rw [skipValue] at h
  split at h
  · simp at h
  · next rest hs =>
    rw [hs, List.length_cons] at h0
    have h1 := skipSpace_length_le rest
    split at h
    · next tail ht =>
      rw [ht, List.length_cons] at h1
      have shorter : tail.length < s.length := by omega
      have := skipClosing_length_le h
      omega
    · simp at h
    · have shorter : (skipSpace rest).length < s.length := by omega
      have := skipValue_shortens h
      omega
  · next rest hs =>
    rw [hs, List.length_cons] at h0
    have h1 := skipSpace_length_le rest
    split at h
    · next tail ht =>
      rw [ht, List.length_cons] at h1
      have shorter : tail.length < s.length := by omega
      have := skipClosing_length_le h
      omega
    · split at h
      · simp at h
      · next tail ht =>
        have h2 := skipKey_shortens ht
        have shorter : tail.length < s.length := by omega
        have := skipValue_shortens h
        omega
  · next c rest _ _ hs =>
    rw [hs] at h0
    split at h
    · simp at h
    · next tail ht =>
      have h1 := skipScalar_shortens ht
      have shorter : tail.length < s.length := by omega
      have := skipClosing_length_le h
      omega
termination_by 2 * s.length + 1

/-- What is left after the open brackets are closed is no longer than what was there before. -/
theorem skipClosing_length_le {openBrackets : List Bracket} {s r : List Char}
    (h : skipClosing openBrackets s = .ok r) : r.length ≤ s.length := by
  have h0 := skipSpace_length_le s
  rw [skipClosing.eq_def] at h
  split at h
  · simp_all
  · split at h
    · next rest hs =>
      rw [hs, List.length_cons] at h0
      have shorter : rest.length < s.length := by omega
      have := skipValue_shortens h
      omega
    · next rest hs =>
      rw [hs, List.length_cons] at h0
      have shorter : rest.length < s.length := by omega
      have := skipClosing_length_le h
      omega
    · simp at h
    · simp at h
  · split at h
    · next rest hs =>
      rw [hs, List.length_cons] at h0
      split at h
      · simp at h
      · next tail ht =>
        have h2 := skipKey_shortens ht
        have shorter : tail.length < s.length := by omega
        have := skipValue_shortens h
        omega
    · next rest hs =>
      rw [hs, List.length_cons] at h0
      have shorter : rest.length < s.length := by omega
      have := skipClosing_length_le h
      omega
    · simp at h
    · simp at h
termination_by 2 * s.length

end

end MockForge.Json

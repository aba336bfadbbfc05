import MockForge.Text.Reader
import MockForge.Toml.Scalar
import MockForge.Toml.Tree

/-!
# Reading values

Lists and inline tables hold values that are nested one level less deeply, so the reader of all
values is built up from the reader of those without brackets.
-/

namespace MockForge.Toml

/-- Reads a value that has no brackets: a quoted text or a scalar. -/
def plainValue (s : List Char) : Except Malformed (Value × List Char) :=
  match s with
  | '"' :: _ | '\'' :: _ => (quotedText s).map fun p => (.text (String.ofList p.1), p.2)
  | _ => scalar s

theorem plainValue_shortens {s r : List Char} {value : Value}
    (h : plainValue s = .ok (value, r)) : r.length < s.length := by
  have quoted : ∀ {s : List Char},
      ((quotedText s).map fun p => (Value.text (String.ofList p.1), p.2)) = .ok (value, r) →
        r.length < s.length := by
    intro s h
    cases hq : quotedText s with
    | error fault => simp [hq, Except.map] at h
    | ok p =>
        have h1 := quotedText_shortens hq
        simp only [hq, Except.map, Except.ok.injEq, Prod.mk.injEq] at h
        rw [← h.2]
        exact h1
  unfold plainValue at h
  split at h
  · exact quoted h
  · exact quoted h
  · exact scalar_shortens h

/-! ## Lists -/

/-- Passes over the comma after an item, unless the closing bracket stands there. -/
def separator (close : Char) (s : List Char) : Except Malformed (List Char) :=
  match skipLines s with
  | ',' :: rest => .ok (skipLines rest)
  | c :: rest => if c = close then .ok (c :: rest) else .error .malformed
  | [] => .error .malformed

theorem separator_length_le {close : Char} {s r : List Char} (h : separator close s = .ok r) :
    r.length ≤ s.length := by
  have h0 := skipLines_length_le s
  unfold separator at h
  split at h
  · next rest hs =>
    have h1 := skipLines_length_le rest
    simp only [Except.ok.injEq] at h
    rw [hs, List.length_cons] at h0
    rw [← h]
    omega
  · next c rest _ hs =>
    split at h
    · simp only [Except.ok.injEq] at h
      rw [← h, ← hs]
      exact h0
    · simp at h
  · simp at h

/-- Reads items up to and with the closing bracket of their list. -/
def listTail (item : Reader Malformed Value) (s : List Char) :
    Except Malformed (List Value × List Char) :=
  match s with
  | ']' :: rest => .ok ([], rest)
  | other =>
      match _h : item.run other with
      | .error fault => .error fault
      | .ok (value, rest) =>
          match _h1 : separator ']' rest with
          | .error fault => .error fault
          | .ok tail => (listTail item tail).map fun p => (value :: p.1, p.2)
termination_by s.length
decreasing_by
  have h0 := item.shortens _h
  have h1 := separator_length_le _h1
  omega

theorem listTail_shortens {item : Reader Malformed Value} {s r : List Char} {values : List Value}
    (h : listTail item s = .ok (values, r)) : r.length < s.length := by
  fun_induction listTail item s generalizing values with
  | case1 => simp_all
  | case2 => simp at h
  | case3 => simp at h
  | case4 s _ value rest hv tail ht ih =>
      have h0 := item.shortens hv
      have h1 := separator_length_le ht
      cases hl : listTail item tail with
      | error fault => simp [hl, Except.map] at h
      | ok p =>
          simp only [hl, Except.map, Except.ok.injEq, Prod.mk.injEq] at h
          have h2 := ih (show listTail item tail = .ok (p.1, r) by rw [hl, ← h.2])
          omega

/-! ## Inline tables -/

/-- Passes over the sign between a key and its value. -/
def equals : List Char → Except Malformed (List Char)
  | '=' :: rest => .ok rest
  | _ => .error .malformed

theorem equals_shortens {s r : List Char} (h : equals s = .ok r) : r.length < s.length := by
  unfold equals at h
  split at h
  · simp_all
  · simp at h

/-- Reads one entry of an inline table into the entries before it. -/
def inlineEntry (item : Reader Malformed Value) (entries : Tree.Entries) (s : List Char) :
    Except Malformed (Tree.Entries × List Char) := do
  let (keys, rest) ← key s
  let rest ← equals (skipLines rest)
  let (value, rest) ← item.run (skipLines rest)
  let entries ← Tree.addValue keys.dropLast (keys.getLast?.getD "") value entries
  return (entries, rest)

theorem inlineEntry_shortens {item : Reader Malformed Value} {entries entries' : Tree.Entries}
    {s r : List Char} (h : inlineEntry item entries s = .ok (entries', r)) :
    r.length < s.length := by
  unfold inlineEntry at h
  cases hk : key s with
  | error fault => simp [hk, bind, Except.bind] at h
  | ok p =>
      have h0 := key_shortens hk
      have h1 := skipLines_length_le p.2
      cases he : equals (skipLines p.2) with
      | error fault => simp [hk, he, bind, Except.bind] at h
      | ok rest =>
          have h2 := equals_shortens he
          have h3 := skipLines_length_le rest
          cases hv : item.run (skipLines rest) with
          | error fault => simp [hk, he, hv, bind, Except.bind] at h
          | ok q =>
              have h4 := item.shortens (a := q.1) (r := q.2) hv
              cases ha : Tree.addValue p.1.dropLast (p.1.getLast?.getD "") q.1 entries with
              | error fault => simp [hk, he, hv, ha, bind, Except.bind] at h
              | ok added =>
                  simp only [hk, he, hv, ha, bind, Except.bind, pure, Except.pure,
                    Except.ok.injEq, Prod.mk.injEq] at h
                  rw [← h.2]
                  omega

/-- Reads entries up to and with the closing bracket of their inline table. -/
def tableTail (item : Reader Malformed Value) (entries : Tree.Entries) (s : List Char) :
    Except Malformed (Tree.Entries × List Char) :=
  match s with
  | '}' :: rest => .ok (entries, rest)
  | other =>
      match _h : inlineEntry item entries other with
      | .error fault => .error fault
      | .ok (entries, rest) =>
          match _h1 : separator '}' rest with
          | .error fault => .error fault
          | .ok tail => tableTail item entries tail
termination_by s.length
decreasing_by
  have h0 := inlineEntry_shortens _h
  have h1 := separator_length_le _h1
  omega

theorem tableTail_shortens {item : Reader Malformed Value} {entries entries' : Tree.Entries}
    {s r : List Char} (h : tableTail item entries s = .ok (entries', r)) :
    r.length < s.length := by
  fun_induction tableTail item entries s with
  | case1 => simp_all
  | case2 => simp at h
  | case3 => simp at h
  | case4 entries s _ entries1 rest hv tail ht ih =>
      have h0 := inlineEntry_shortens hv
      have h1 := separator_length_le ht
      have h2 := ih h
      omega

/-! ## All values -/

/-- Reads a value whose brackets hold values that `item` reads. -/
def bracketed (item : Reader Malformed Value) : Reader Malformed Value where
  run s :=
    match s with
    | '[' :: rest => (listTail item (skipLines rest)).map fun p => (.list p.1, p.2)
    | '{' :: rest =>
        (tableTail item [] (skipLines rest)).map fun p => (.table (entryValues p.1), p.2)
    | _ => plainValue s
  shortens := by
    intro s value r h
    split at h
    · next rest =>
      have h0 := skipLines_length_le rest
      cases hl : listTail item (skipLines rest) with
      | error fault => simp [hl, Except.map] at h
      | ok p =>
          have h1 := listTail_shortens hl
          simp only [hl, Except.map, Except.ok.injEq, Prod.mk.injEq] at h
          rw [← h.2, List.length_cons]
          omega
    · next rest =>
      have h0 := skipLines_length_le rest
      cases hl : tableTail item [] (skipLines rest) with
      | error fault => simp [hl, Except.map] at h
      | ok p =>
          have h1 := tableTail_shortens hl
          simp only [hl, Except.map, Except.ok.injEq, Prod.mk.injEq] at h
          rw [← h.2, List.length_cons]
          omega
    · exact plainValue_shortens h

/-- Reads a value with brackets nested up to a depth. -/
def valueOfDepth : Nat → Reader Malformed Value
  | 0 => ⟨plainValue, plainValue_shortens⟩
  | depth + 1 => bracketed (valueOfDepth depth)

/-- How deeply brackets may be nested. -/
def maxDepth : Nat := 80

/-- Reads a value. -/
def value : Reader Malformed Value := valueOfDepth maxDepth

end MockForge.Toml

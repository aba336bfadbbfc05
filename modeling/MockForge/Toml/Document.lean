import MockForge.Toml.Reader

/-!
# TOML documents

A document is a sequence of statements, each on lines of its own. A header says which table the
entries after it belong to.
-/

namespace MockForge.Toml

/-- A statement of a document: an entry of the table at hand, or the header of another table or of
another row of an array of tables. The last part of a key stands apart from the path to it. -/
inductive Statement where
  | entry (path : List String) (key : String) (value : Value)
  | header (path : List String) (key : String)
  | rowHeader (path : List String) (key : String)

/-- Passes over a closing square bracket. -/
def closing : List Char → Except Malformed (List Char)
  | ']' :: rest => .ok rest
  | _ => .error .malformed

theorem closing_length_le {s r : List Char} (h : closing s = .ok r) : r.length ≤ s.length := by
  unfold closing at h
  split at h
  · simp_all
  · simp at h

/-- The path and the last part of a key. -/
def parted (keys : List String) : List String × String :=
  (keys.dropLast, keys.getLast?.getD "")

/-- Reads the key of a header and its closing bracket. -/
def headerTail (s : List Char) : Except Malformed (List String × List Char) :=
  match key (skipSpace s) with
  | .error fault => .error fault
  | .ok (keys, rest) => (closing (skipSpace rest)).map fun rest => (keys, rest)

theorem headerTail_shortens {s r : List Char} {keys : List String}
    (h : headerTail s = .ok (keys, r)) : r.length < s.length := by
  have h0 := skipSpace_length_le s
  unfold headerTail at h
  split at h
  · simp at h
  · next keys' rest hk =>
    have h1 := key_shortens hk
    have h2 := skipSpace_length_le rest
    cases hc : closing (skipSpace rest) with
    | error fault => simp [hc, Except.map] at h
    | ok rest' =>
        have h3 := closing_length_le hc
        simp only [hc, Except.map, Except.ok.injEq, Prod.mk.injEq] at h
        rw [← h.2]
        omega

/-- Reads the key and the value of an entry. -/
def entry (s : List Char) : Except Malformed (Statement × List Char) :=
  match key s with
  | .error fault => .error fault
  | .ok (keys, rest) =>
      match equals (skipSpace rest) with
      | .error fault => .error fault
      | .ok rest =>
          (value.run (skipSpace rest)).map fun p =>
            (.entry (parted keys).1 (parted keys).2 p.1, p.2)

theorem entry_shortens {s r : List Char} {statement : Statement}
    (h : entry s = .ok (statement, r)) : r.length < s.length := by
  unfold entry at h
  split at h
  · simp at h
  · next keys rest hk =>
    have h0 := key_shortens hk
    have h1 := skipSpace_length_le rest
    split at h
    · simp at h
    · next rest' he =>
      have h2 := equals_shortens he
      have h3 := skipSpace_length_le rest'
      cases hv : value.run (skipSpace rest') with
      | error fault => simp [hv, Except.map] at h
      | ok p =>
          have h4 := value.shortens (a := p.1) (r := p.2) hv
          simp only [hv, Except.map, Except.ok.injEq, Prod.mk.injEq] at h
          rw [← h.2]
          omega

/-- Reads a statement. -/
def statement (s : List Char) : Except Malformed (Statement × List Char) :=
  match s with
  | '[' :: '[' :: rest =>
      match headerTail rest with
      | .error fault => .error fault
      | .ok (keys, rest) =>
          (closing rest).map fun rest => (.rowHeader (parted keys).1 (parted keys).2, rest)
  | '[' :: rest =>
      (headerTail rest).map fun p => (.header (parted p.1).1 (parted p.1).2, p.2)
  | _ => entry s

theorem statement_shortens {s r : List Char} {st : Statement}
    (h : statement s = .ok (st, r)) : r.length < s.length := by
  unfold statement at h
  split at h
  · split at h
    · simp at h
    · next keys rest hk =>
      have h0 := headerTail_shortens hk
      cases hc : closing rest with
      | error fault => simp [hc, Except.map] at h
      | ok rest' =>
          have h1 := closing_length_le hc
          simp only [hc, Except.map, Except.ok.injEq, Prod.mk.injEq] at h
          rw [← h.2]
          simp only [List.length_cons]
          omega
  · next rest _ =>
    cases hk : headerTail rest with
    | error fault => simp [hk, Except.map] at h
    | ok p =>
        have h0 := headerTail_shortens hk
        simp only [hk, Except.map, Except.ok.injEq, Prod.mk.injEq] at h
        rw [← h.2, List.length_cons]
        omega
  · exact entry_shortens h

/-- Reads all statements of a text. -/
def statements (s : List Char) : Except Malformed (List Statement) :=
  match _h0 : skipLines s with
  | [] => .ok []
  | c :: rest =>
      match _h : statement (c :: rest) with
      | .error fault => .error fault
      | .ok (st, tail) =>
          match _h1 : lineEnd tail with
          | .error fault => .error fault
          | .ok tail => (statements tail).map (st :: ·)
termination_by s.length
decreasing_by
  have h0 := skipLines_length_le s
  have h1 := statement_shortens _h
  have h2 := lineEnd_length_le _h1
  rw [_h0] at h0
  omega

/-- A document while it is put together: all entries so far, and the path to the table that the
next entry belongs to. -/
structure Draft where
  entries : Tree.Entries
  current : List String

/-- Takes in one statement. -/
def Draft.take (draft : Draft) : Statement → Except Malformed Draft
  | .entry path key value =>
      (Tree.within .implied (fun _ => Tree.addValue path key value) draft.current .declared
        draft.entries).map fun entries => ⟨entries, draft.current⟩
  | .header path key =>
      (Tree.declare path key draft.entries).map fun entries => ⟨entries, path ++ [key]⟩
  | .rowHeader path key =>
      (Tree.declareRow path key draft.entries).map fun entries => ⟨entries, path ++ [key]⟩

/-- The table that a document spells. A byte order mark in front is passed over. -/
def document (s : String) : Except Malformed Table := do
  let text := match s.toList with
    | '\ufeff' :: rest => rest
    | text => text
  let draft ← (← statements text).foldlM Draft.take ⟨[], []⟩
  return entryValues draft.entries

end MockForge.Toml

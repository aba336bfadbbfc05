import MockForge.Json.Number
import MockForge.Json.Skip
import MockForge.Text.Reader

/-!
# Reading typed documents

A document is read straight into the form that is wanted, from left to right, so the first thing
that is wrong is the one reported. A record may stand as an object, with its fields in any order
and among others that are passed over, or as a list of its fields in their order.
-/

namespace MockForge.Json

/-! ## Scalars -/

/-- The value at the front of a text, for a report: all of a scalar, of the others the bracket. -/
def found (s : List Char) : Except Fault Found :=
  match s with
  | [] => .error .endOfText
  | 'n' :: rest => (skipWord "ull".toList rest).map fun _ => .null
  | 't' :: rest => (skipWord "rue".toList rest).map fun _ => .boolean true
  | 'f' :: rest => (skipWord "alse".toList rest).map fun _ => .boolean false
  | '-' :: rest => foundNumber true rest
  | '"' :: rest => (literalTail rest).map fun p => .text (String.ofList p.1)
  | '[' :: _ => .ok .list
  | '{' :: _ => .ok .object
  | c :: _ => if c.isDigit then foundNumber false s else .error .malformed

/-- The fault of a text that does not start with what is expected. -/
def misplaced (expected : String) (s : List Char) : Fault :=
  match found s with
  | .error fault => fault
  | .ok value => .misfit (.wrongForm value expected)

/-- Reads a text. -/
def text : Reader Fault String where
  run s :=
    match skipSpace s with
    | '"' :: rest => (literalTail rest).map fun p => (String.ofList p.1, p.2)
    | other => .error (misplaced "a string" other)
  shortens := by
    intro s a r h
    have h0 := skipSpace_length_le s
    split at h
    · next rest hs =>
      rw [hs, List.length_cons] at h0
      cases ht : literalTail rest with
      | error fault => simp [ht, Except.map] at h
      | ok p =>
          have h1 := literalTail_shortens ht
          simp only [ht, Except.map, Except.ok.injEq, Prod.mk.injEq] at h
          rw [← h.2]
          omega
    · simp at h

/-- Reads a text, or `null` for none. -/
def optionalText : Reader Fault (Option String) where
  run s :=
    match skipSpace s with
    | 'n' :: rest => (skipWord "ull".toList rest).map fun r => (none, r)
    | _ => (text.map some).run s
  shortens := by
    intro s a r h
    have h0 := skipSpace_length_le s
    split at h
    · next rest hs =>
      rw [hs, List.length_cons] at h0
      cases ht : skipWord "ull".toList rest with
      | error fault => rw [ht] at h; simp [Except.map] at h
      | ok tail =>
          have h1 := skipWord_length_le ht
          simp only [ht, Except.map, Except.ok.injEq, Prod.mk.injEq] at h
          rw [← h.2]
          omega
    · exact (text.map some).shortens h

/-! ## Lists -/

/-- Looks for the next item of a list: whether there is one, and the text from there. The first
item stands at once, every other one after a comma. -/
def nextItem (first : Bool) (s : List Char) : Except Fault (Bool × List Char) :=
  match skipSpace s with
  | [] => .error .endOfText
  | ']' :: rest => .ok (false, ']' :: rest)
  | other =>
      if first then .ok (true, other)
      else
        match other with
        | ',' :: rest =>
            match skipSpace rest with
            | [] => .error .endOfText
            | ']' :: _ => .error .malformed
            | tail => .ok (true, tail)
        | _ => .error .malformed

theorem nextItem_length_le {first more : Bool} {s r : List Char}
    (h : nextItem first s = .ok (more, r)) : r.length ≤ s.length := by
  have h0 := skipSpace_length_le s
  unfold nextItem at h
  split at h
  · simp at h
  · next rest hs =>
    rw [hs] at h0
    simp only [Except.ok.injEq, Prod.mk.injEq] at h
    rw [← h.2]
    exact h0
  · split at h
    · simp only [Except.ok.injEq, Prod.mk.injEq] at h
      rw [← h.2]
      exact h0
    · split at h
      · next rest hs =>
        rw [hs, List.length_cons] at h0
        have h1 := skipSpace_length_le rest
        split at h
        · simp at h
        · simp at h
        · simp only [Except.ok.injEq, Prod.mk.injEq] at h
          rw [← h.2]
          omega
      · simp at h

/-- The end of a list after its last item. -/
def listEnd (s : List Char) : Except Fault (List Char) :=
  match skipSpace s with
  | [] => .error .endOfText
  | ']' :: rest => .ok rest
  | _ => .error .malformed

theorem listEnd_shortens {s r : List Char} (h : listEnd s = .ok r) : r.length < s.length := by
  have h0 := skipSpace_length_le s
  unfold listEnd at h
  split at h
  · simp at h
  · next rest hs =>
    rw [hs, List.length_cons] at h0
    simp only [Except.ok.injEq] at h
    rw [← h]
    omega
  · simp at h

/-- Reads items up to the end of their list, which is left in place. -/
def items {α : Type} (item : Reader Fault α) (first : Bool) (s : List Char) :
    Except Fault (List α × List Char) :=
  match _h : nextItem first s with
  | .error fault => .error fault
  | .ok (false, rest) => .ok ([], rest)
  | .ok (true, rest) =>
      match _h1 : item.run rest with
      | .error fault => .error fault
      | .ok (a, tail) =>
          match items item false tail with
          | .error fault => .error fault
          | .ok (as, r) => .ok (a :: as, r)
termination_by s.length
decreasing_by
  have h0 := nextItem_length_le _h
  have h1 := item.shortens _h1
  omega

theorem items_length_le {α : Type} {item : Reader Fault α} {first : Bool} {s r : List Char}
    {as : List α} (h : items item first s = .ok (as, r)) : r.length ≤ s.length := by
  fun_induction items item first s generalizing as r with
  | case1 => simp at h
  | case2 first s rest hn =>
      simp only [Except.ok.injEq, Prod.mk.injEq] at h
      exact h.2 ▸ nextItem_length_le hn
  | case3 => simp at h
  | case4 => simp at h
  | case5 first s rest hn a tail ht as' r' hr ih =>
      have h0 := nextItem_length_le hn
      have h1 := item.shortens ht
      have h2 := ih hr
      simp only [Except.ok.injEq, Prod.mk.injEq] at h
      rw [← h.2]
      omega

/-- Reads a list. -/
def list {α : Type} (item : Reader Fault α) : Reader Fault (List α) where
  run s :=
    match skipSpace s with
    | '[' :: rest =>
        match items item true rest with
        | .error fault => .error fault
        | .ok (as, tail) => (listEnd tail).map fun r => (as, r)
    | other => .error (misplaced "a sequence" other)
  shortens := by
    intro s a r h
    have h0 := skipSpace_length_le s
    split at h
    · next rest hs =>
      rw [hs, List.length_cons] at h0
      split at h
      · simp at h
      · next as tail hi =>
        have h1 := items_length_le hi
        cases he : listEnd tail with
        | error fault => simp [he, Except.map] at h
        | ok tail' =>
            have h2 := listEnd_shortens he
            simp only [he, Except.map, Except.ok.injEq, Prod.mk.injEq] at h
            rw [← h.2]
            omega
    · simp at h

/-! ## Records -/

/-- A field of a record that is read piece by piece into a draft. -/
structure Field (σ : Type) where
  key : String
  /-- Whether the draft has the field already. -/
  filled : σ → Bool
  /-- Reads the field into the draft. -/
  fill : σ → Reader Fault σ

/-- A record: its name in reports, the draft before anything is read, its fields in their order,
and the record that a draft makes, or the key of the first field that it lacks. -/
structure Record (σ α : Type) where
  name : String
  blank : σ
  fields : List (Field σ)
  finish : σ → Except String α

namespace Record

variable {σ α : Type}

/-- What the record is called where it is expected. -/
def title (record : Record σ α) : String := "struct " ++ record.name

/-- What the record is called where a list of its fields is expected. -/
def listTitle (record : Record σ α) : String :=
  let count := record.fields.length
  record.title ++ " with " ++ toString count ++ (if count = 1 then " element" else " elements")

/-- Reads the key of the next member of an object, or passes over the closing bracket. -/
def nextKey (first : Bool) (s : List Char) : Except Fault (Option String × List Char) :=
  match skipSpace s with
  | [] => .error .endOfText
  | '}' :: rest => .ok (none, rest)
  | ',' :: rest =>
      if first then .error .malformed
      else
        match skipSpace rest with
        | [] => .error .endOfText
        | '"' :: tail => (literalTail tail).map fun p => (some (String.ofList p.1), p.2)
        | _ => .error .malformed
  | '"' :: rest =>
      if first then (literalTail rest).map fun p => (some (String.ofList p.1), p.2)
      else .error .malformed
  | _ => .error .malformed

private theorem mapTail_shortens {s r : List Char} {key : Option String}
    (h : ((literalTail s).map fun p => (some (String.ofList p.1), p.2)) = .ok (key, r)) :
    r.length < s.length := by
  cases ht : literalTail s with
  | error fault => simp [ht, Except.map] at h
  | ok p =>
      have h1 := literalTail_shortens ht
      simp only [ht, Except.map, Except.ok.injEq, Prod.mk.injEq] at h
      rw [← h.2]
      exact h1

theorem nextKey_shortens {first : Bool} {s r : List Char} {key : Option String}
    (h : nextKey first s = .ok (key, r)) : r.length < s.length := by
  have h0 := skipSpace_length_le s
  unfold nextKey at h
  split at h
  · simp at h
  · next rest hs =>
    rw [hs, List.length_cons] at h0
    simp only [Except.ok.injEq, Prod.mk.injEq] at h
    rw [← h.2]
    omega
  · next rest hs =>
    rw [hs, List.length_cons] at h0
    have h1 := skipSpace_length_le rest
    split at h
    · simp at h
    · split at h
      · simp at h
      · next tail ht =>
        rw [ht, List.length_cons] at h1
        have := mapTail_shortens h
        omega
      · simp at h
  · next rest hs =>
    rw [hs, List.length_cons] at h0
    split at h
    · have := mapTail_shortens h
      omega
    · simp at h
  · simp at h

/-- Passes over the colon between a key and its value. -/
def colon (s : List Char) : Except Fault (List Char) :=
  match skipSpace s with
  | ':' :: rest => .ok rest
  | [] => .error .endOfText
  | _ => .error .malformed

theorem colon_shortens {s r : List Char} (h : colon s = .ok r) : r.length < s.length := by
  have h0 := skipSpace_length_le s
  unfold colon at h
  split at h
  · next rest hs =>
    rw [hs, List.length_cons] at h0
    simp only [Except.ok.injEq] at h
    rw [← h]
    omega
  · simp at h
  · simp at h

/-- Reads the value of a member into the draft. A known field that the draft has already is
refused before its value is looked at; a member of another name is passed over. -/
def member (record : Record σ α) (key : String) (draft : σ) (s : List Char) :
    Except Fault (σ × List Char) :=
  match record.fields.find? (·.key = key) with
  | some field =>
      if field.filled draft then .error (.misfit (.repeatedField key))
      else
        match colon s with
        | .error fault => .error fault
        | .ok rest => (field.fill draft).run rest
  | none =>
      match colon s with
      | .error fault => .error fault
      | .ok rest => (skipValue [] rest).map fun r => (draft, r)

theorem member_shortens {record : Record σ α} {key : String} {draft draft' : σ} {s r : List Char}
    (h : record.member key draft s = .ok (draft', r)) : r.length < s.length := by
  unfold member at h
  split at h
  · next field _ =>
    split at h
    · simp at h
    · split at h
      · simp at h
      · next rest hc =>
        have h1 := colon_shortens hc
        have h2 := (field.fill draft).shortens h
        omega
  · split at h
    · simp at h
    · next rest hc =>
      have h1 := colon_shortens hc
      cases hs : skipValue [] rest with
      | error fault => simp [hs, Except.map] at h
      | ok tail =>
          have h2 := skipValue_shortens hs
          simp only [hs, Except.map, Except.ok.injEq, Prod.mk.injEq] at h
          rw [← h.2]
          omega

/-- Reads the members of an object into the draft, up to and with the closing bracket. -/
def members (record : Record σ α) (draft : σ) (first : Bool) (s : List Char) :
    Except Fault (σ × List Char) :=
  match _h : nextKey first s with
  | .error fault => .error fault
  | .ok (none, rest) => .ok (draft, rest)
  | .ok (some key, rest) =>
      match _h1 : record.member key draft rest with
      | .error fault => .error fault
      | .ok (draft, tail) => record.members draft false tail
termination_by s.length
decreasing_by
  have h0 := nextKey_shortens _h
  have h1 := member_shortens _h1
  omega

theorem members_shortens {record : Record σ α} {draft draft' : σ} {first : Bool}
    {s r : List Char} (h : record.members draft first s = .ok (draft', r)) :
    r.length < s.length := by
  fun_induction members record draft first s generalizing draft' r with
  | case1 => simp at h
  | case2 draft first s rest hn =>
      simp only [Except.ok.injEq, Prod.mk.injEq] at h
      exact h.2 ▸ nextKey_shortens hn
  | case3 => simp at h
  | case4 draft first s key rest hn draft1 tail ht ih =>
      have h0 := nextKey_shortens hn
      have h1 := member_shortens ht
      have h2 := ih h
      omega

/-- Reads the items of a list into the fields of the draft, one after the other, up to the closing
bracket. A list may end early when the record can do without the fields that are left. -/
def positions (record : Record σ α) (draft : σ) (count : Nat) :
    List (Field σ) → List Char → Except Fault (σ × List Char)
  | [], s => .ok (draft, s)
  | field :: fields, s =>
      match nextItem (count = 0) s with
      | .error fault => .error fault
      | .ok (false, rest) =>
          match record.finish draft with
          | .ok _ => .ok (draft, rest)
          | .error _ => .error (.misfit (.tooShort count record.listTitle))
      | .ok (true, rest) =>
          match (field.fill draft).run rest with
          | .error fault => .error fault
          | .ok (draft, tail) => record.positions draft (count + 1) fields tail

theorem positions_length_le {record : Record σ α} {draft draft' : σ} {count : Nat}
    {fields : List (Field σ)} {s r : List Char}
    (h : record.positions draft count fields s = .ok (draft', r)) : r.length ≤ s.length := by
  induction fields generalizing draft count s with
  | nil => simp_all [positions]
  | cons field fields ih =>
      unfold positions at h
      split at h
      · simp at h
      · next rest hn =>
        have h0 := nextItem_length_le hn
        split at h
        · simp only [Except.ok.injEq, Prod.mk.injEq] at h
          exact h.2 ▸ h0
        · simp at h
      · next rest hn =>
        have h0 := nextItem_length_le hn
        split at h
        · simp at h
        · next draft1 tail ht =>
          have h1 := (field.fill draft).shortens ht
          have h2 := ih h
          omega

/-- The record that a draft makes; a missing field is a fault. -/
def finished (record : Record σ α) (draft : σ) (rest : List Char) : Except Fault (α × List Char) :=
  match record.finish draft with
  | .ok a => .ok (a, rest)
  | .error key => .error (.misfit (.missingField key))

theorem finished_rest {record : Record σ α} {draft : σ} {s r : List Char} {a : α}
    (h : record.finished draft s = .ok (a, r)) : r = s := by
  unfold finished at h
  split at h
  · simp_all
  · simp at h

/-- Reads a record. -/
def reader (record : Record σ α) : Reader Fault α where
  run s :=
    match skipSpace s with
    | '{' :: rest =>
        match record.members record.blank true rest with
        | .error fault => .error fault
        | .ok (draft, tail) => record.finished draft tail
    | '[' :: rest =>
        match record.positions record.blank 0 record.fields rest with
        | .error fault => .error fault
        | .ok (draft, tail) =>
            match listEnd tail with
            | .error fault => .error fault
            | .ok tail => record.finished draft tail
    | other => .error (misplaced record.title other)
  shortens := by
    intro s a r h
    have h0 := skipSpace_length_le s
    split at h
    · next rest hs =>
      rw [hs, List.length_cons] at h0
      split at h
      · simp at h
      · next draft tail hm =>
        have h1 := members_shortens hm
        rw [finished_rest h]
        omega
    · next rest hs =>
      rw [hs, List.length_cons] at h0
      split at h
      · simp at h
      · next draft tail hp =>
        have h1 := positions_length_le hp
        split at h
        · simp at h
        · next tail' he =>
          have h2 := listEnd_shortens he
          rw [finished_rest h]
          omega
    · simp at h

end Record

/-! ## Documents -/

/-- Reads a whole document: one value with nothing but blanks around it. -/
def document {α : Type} (reader : Reader Fault α) (s : String) : Except Fault α :=
  match reader.run s.toList with
  | .error fault => .error fault
  | .ok (a, rest) => if (skipSpace rest).isEmpty then .ok a else .error .malformed

end MockForge.Json

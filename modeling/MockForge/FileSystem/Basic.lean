/-!
# File systems

A file system holds directories and regular files below a working directory, which is always
there. A location names an entry by the names from the innermost one outward, so the directory
that holds an entry is the tail of its location. Main statements: what each change does to the
entry at any location, and that every entry lies in a directory.
-/

namespace MockForge

/-- Where an entry is: its name, then the name of the directory that holds it, and so on outward.
The working directory is the empty location. -/
abbrev Location := List String

instance decidableEqContents : DecidableEq ByteArray := ByteArray.instDecidableEq

/-- What is found at a location. -/
inductive Entry where
  | directory
  | file (contents : ByteArray)
  deriving DecidableEq

/-- The entry that a list of entries has at a location. -/
def entryIn (entries : List (Location × Entry)) : Location → Option Entry
  | [] => some .directory
  | name :: place => entries.lookup (name :: place)

/-- The directories and files below the working directory. -/
structure FileSystem where
  entries : List (Location × Entry)
  /-- Every entry lies in a directory. -/
  rooted : ∀ name place, (entryIn entries (name :: place)).isSome →
    entryIn entries place = some .directory

namespace FileSystem

/-- The entry at a location. -/
def get? (fs : FileSystem) (location : Location) : Option Entry := entryIn fs.entries location

@[simp]
theorem get?_nil (fs : FileSystem) : fs.get? [] = some .directory := rfl

/-- The directory around an entry. -/
theorem get?_tail {fs : FileSystem} {name : String} {place : Location} {entry : Entry}
    (h : fs.get? (name :: place) = some entry) : fs.get? place = some .directory :=
  fs.rooted name place (by rw [show entryIn fs.entries _ = _ from h]; rfl)

/-- Nothing but the working directory. -/
def empty : FileSystem where
  entries := []
  rooted := by
    intro name place h
    simp [entryIn] at h

instance : Inhabited FileSystem := ⟨empty⟩

/-! ## Changes -/

/-- The entries with another one, or with none, at a location. -/
def changed (entries : List (Location × Entry)) (location : Location) (entry : Option Entry) :
    List (Location × Entry) :=
  (entry.map fun e => (location, e)).toList ++ entries.filter (·.1 ≠ location)

/-- Leaving out entries by their locations leaves the others as they are. -/
theorem lookup_filter (keep : Location → Bool) (entries : List (Location × Entry))
    (b : Location) :
    (entries.filter fun e => keep e.1).lookup b = if keep b then entries.lookup b else none := by
  induction entries with
  | nil => simp
  | cons e rest ih =>
      obtain ⟨c, entry⟩ := e
      by_cases hbc : b = c
      · subst hbc
        by_cases hk : keep b
        · simp [hk]
        · simp only [hk, Bool.false_eq_true, if_false] at ih ⊢
          rw [List.filter_cons_of_neg (by simpa using hk), ih]
      · have hb : (b == c) = false := by simpa using hbc
        by_cases hk : keep c
        · rw [List.filter_cons_of_pos (by simpa using hk), List.lookup_cons, List.lookup_cons, hb,
            ih]
        · rw [List.filter_cons_of_neg (by simpa using hk), List.lookup_cons, hb, ih]

theorem entryIn_changed {entries : List (Location × Entry)} {name : String} {place b : Location}
    {entry : Option Entry} :
    entryIn (changed entries (name :: place) entry) b =
      if b = name :: place then entry else entryIn entries b := by
  cases b with
  | nil => simp [entryIn]
  | cons other where_ =>
      cases entry with
      | none =>
          simp only [changed, entryIn, Option.map_none, Option.toList_none, List.nil_append]
          rw [lookup_filter (fun c => decide (c ≠ name :: place))]
          by_cases h : other :: where_ = name :: place <;> simp [h]
      | some e =>
          simp only [changed, entryIn, Option.map_some, Option.toList_some, List.cons_append,
            List.nil_append, List.lookup_cons]
          by_cases h : other :: where_ = name :: place
          · simp [h]
          · have : (other :: where_ == name :: place) = false := by simpa using h
            rw [this, lookup_filter (fun c => decide (c ≠ name :: place))]
            simp [h]

/-- Puts an entry into a directory. A directory is never replaced by a file. -/
def put (fs : FileSystem) (name : String) (place : Location) (entry : Entry)
    (h : fs.get? place = some .directory)
    (hd : fs.get? (name :: place) ≠ some .directory ∨ entry = .directory) : FileSystem where
  entries := changed fs.entries (name :: place) (some entry)
  rooted := by
    intro other where_ hs
    rw [entryIn_changed] at hs ⊢
    by_cases hw : where_ = name :: place
    · rw [if_pos hw]
      have hne : other :: where_ ≠ name :: place := by
        intro he
        have := congrArg List.length he
        rw [hw] at this
        simp at this
      rw [if_neg hne] at hs
      have := fs.rooted other where_ hs
      rcases hd with hd | hd
      · rw [hw] at this
        exact absurd this hd
      · rw [hd]
    · rw [if_neg hw]
      by_cases he : other :: where_ = name :: place
      · rw [List.cons.injEq] at he
        rw [he.2]
        exact h
      · rw [if_neg he] at hs
        exact fs.rooted other where_ hs

theorem get?_put {fs : FileSystem} {name : String} {place b : Location} {entry : Entry}
    {h : fs.get? place = some .directory}
    {hd : fs.get? (name :: place) ≠ some .directory ∨ entry = .directory} :
    (fs.put name place entry h hd).get? b =
      if b = name :: place then some entry else fs.get? b :=
  entryIn_changed

/-- Takes out an entry that is no directory. -/
def erase (fs : FileSystem) (name : String) (place : Location)
    (h : fs.get? (name :: place) ≠ some .directory) : FileSystem where
  entries := changed fs.entries (name :: place) none
  rooted := by
    intro other where_ hs
    rw [entryIn_changed] at hs ⊢
    by_cases he : other :: where_ = name :: place
    · rw [if_pos he] at hs
      simp at hs
    · rw [if_neg he] at hs
      have := fs.rooted other where_ hs
      by_cases hw : where_ = name :: place
      · rw [hw] at this
        exact absurd this h
      · rw [if_neg hw]
        exact this

theorem get?_erase {fs : FileSystem} {name : String} {place b : Location}
    {h : fs.get? (name :: place) ≠ some .directory} :
    (fs.erase name place h).get? b = if b = name :: place then none else fs.get? b :=
  entryIn_changed

/-! ## Operations -/

/-- A change of a file system that happens at once or not at all. -/
inductive Operation where
  | makeDirectory (location : Location)
  /-- Makes an empty file where nothing is. -/
  | createFile (location : Location)
  /-- Gives a file other contents. -/
  | fill (location : Location) (contents : ByteArray)
  /-- Moves a file to a location in a directory, in place of the file that is there. -/
  | rename (source target : Location)
  | remove (location : Location)
  deriving DecidableEq

/-- Puts a new entry where nothing is, inside a directory. -/
def add (fs : FileSystem) (location : Location) (entry : Entry) : FileSystem :=
  match location with
  | [] => fs
  | name :: place =>
      if h : fs.get? place = some .directory ∧ fs.get? (name :: place) = none then
        fs.put name place entry h.1 (by simp [h.2])
      else fs

/-- Gives a file contents. -/
def fill (fs : FileSystem) (location : Location) (contents : ByteArray) : FileSystem :=
  match location with
  | [] => fs
  | name :: place =>
      match h : fs.get? (name :: place) with
      | some (.file _) => fs.put name place (.file contents) (get?_tail h) (by simp [h])
      | _ => fs

/-- Takes out a file. -/
def remove (fs : FileSystem) (location : Location) : FileSystem :=
  match location with
  | [] => fs
  | name :: place =>
      match h : fs.get? (name :: place) with
      | some (.file _) => fs.erase name place (by simp [h])
      | _ => fs

/-- Moves a file. -/
def rename (fs : FileSystem) (source target : Location) : FileSystem :=
  match target, fs.get? source with
  | name :: place, some (.file contents) =>
      if h : fs.get? place = some .directory ∧ fs.get? (name :: place) ≠ some .directory then
        if source = name :: place then fs
        else (fs.put name place (.file contents) h.1 (.inl h.2)).remove source
      else fs
  | _, _ => fs

/-- Performs an operation; one that does not apply changes nothing. -/
def perform (fs : FileSystem) : Operation → FileSystem
  | .makeDirectory location => fs.add location .directory
  | .createFile location => fs.add location (.file .empty)
  | .fill location contents => fs.fill location contents
  | .rename source target => fs.rename source target
  | .remove location => fs.remove location

/-! ## What operations change -/

theorem get?_add (fs : FileSystem) (location b : Location) (entry : Entry) :
    (fs.add location entry).get? b =
      if b = location ∧ fs.get? location.tail = some .directory ∧ fs.get? location = none then
        some entry
      else fs.get? b := by
  cases location with
  | nil => simp [add]
  | cons name place =>
      rw [add]
      by_cases h : fs.get? place = some .directory ∧ fs.get? (name :: place) = none
      · rw [dif_pos h, get?_put]
        by_cases hb : b = name :: place <;> simp [hb, h]
      · rw [dif_neg h]
        exact (if_neg fun hb => h hb.2).symm

theorem get?_fill {fs : FileSystem} {location : Location} {old : ByteArray}
    (h : fs.get? location = some (.file old)) (contents : ByteArray) (b : Location) :
    (fs.fill location contents).get? b =
      if b = location then some (.file contents) else fs.get? b := by
  cases location with
  | nil => simp at h
  | cons name place =>
      simp only [fill]
      split
      · exact get?_put
      · next hn => exact absurd h (hn old)

/-- What is no file is not filled. -/
theorem fill_eq_self {fs : FileSystem} {location : Location}
    (h : ∀ old, fs.get? location ≠ some (.file old)) (contents : ByteArray) :
    fs.fill location contents = fs := by
  cases location with
  | nil => rfl
  | cons name place =>
      rw [fill]
      split
      · next old ho => exact absurd ho (h old)
      · rfl

theorem get?_remove {fs : FileSystem} {location : Location} {old : ByteArray}
    (h : fs.get? location = some (.file old)) (b : Location) :
    (fs.remove location).get? b = if b = location then none else fs.get? b := by
  cases location with
  | nil => simp at h
  | cons name place =>
      simp only [remove]
      split
      · exact get?_erase
      · next hn => exact absurd h (hn old)

/-- What is no file is not removed. -/
theorem remove_eq_self {fs : FileSystem} {location : Location}
    (h : ∀ old, fs.get? location ≠ some (.file old)) : fs.remove location = fs := by
  cases location with
  | nil => rfl
  | cons name place =>
      rw [remove]
      split
      · next old ho => exact absurd ho (h old)
      · rfl

theorem get?_rename {fs : FileSystem} {source target : Location} {contents : ByteArray}
    (hs : fs.get? source = some (.file contents))
    (ht : fs.get? target.tail = some .directory) (hd : fs.get? target ≠ some .directory)
    (b : Location) :
    (fs.rename source target).get? b =
      if b = target then some (.file contents)
      else if b = source then none else fs.get? b := by
  cases target with
  | nil => simp at hd
  | cons name place =>
      simp only [List.tail_cons] at ht
      simp only [rename, hs, ht, hd, ne_eq, not_false_eq_true, and_self, dif_pos]
      by_cases he : source = name :: place
      · rw [if_pos he]
        subst he
        by_cases hb : b = name :: place <;> simp [hb, hs]
      · have hk : (fs.put name place (.file contents) ht (.inl hd)).get? source =
            some (.file contents) := by rw [get?_put, if_neg he, hs]
        rw [if_neg he, get?_remove hk, get?_put]
        by_cases hb : b = source
        · subst hb
          simp [he]
        · simp [hb]

/-- Only a file moves, and only into a directory and not onto one. -/
theorem rename_eq_self {fs : FileSystem} {source target : Location}
    (h : ¬((∃ contents, fs.get? source = some (.file contents)) ∧
      fs.get? target.tail = some .directory ∧ fs.get? target ≠ some .directory)) :
    fs.rename source target = fs := by
  cases target with
  | nil => simp [rename]
  | cons name place =>
      match hs : fs.get? source with
      | some (.file contents) =>
          simp only [rename, hs]
          exact dif_neg fun hp => h ⟨⟨contents, hs⟩, hp⟩
      | some .directory | none => simp only [rename, hs]

/-- No operation takes away a directory. -/
theorem get?_perform_directory {fs : FileSystem} {b : Location}
    (h : fs.get? b = some .directory) (operation : Operation) :
    (fs.perform operation).get? b = some .directory := by
  have hf {location : Location} {old : ByteArray} (ho : fs.get? location = some (.file old)) :
      b ≠ location := by
    intro hb
    rw [hb, ho] at h
    simp at h
  cases operation with
  | makeDirectory location =>
      rw [perform, get?_add]
      split
      · rfl
      · exact h
  | createFile location =>
      rw [perform, get?_add, if_neg, h]
      intro ⟨hb, _, hn⟩
      rw [← hb, h] at hn
      simp at hn
  | fill location contents =>
      by_cases hold : ∃ old, fs.get? location = some (.file old)
      · obtain ⟨old, ho⟩ := hold
        rw [perform, get?_fill ho, if_neg (hf ho), h]
      · rw [perform, fill_eq_self fun old ho => hold ⟨old, ho⟩, h]
  | rename source target =>
      rw [perform]
      by_cases hr : (∃ contents, fs.get? source = some (.file contents)) ∧
          fs.get? target.tail = some .directory ∧ fs.get? target ≠ some .directory
      · obtain ⟨⟨contents, hs⟩, ht, hd⟩ := hr
        rw [get?_rename hs ht hd, if_neg, if_neg (hf hs), h]
        intro hb
        rw [← hb] at hd
        exact hd h
      · rw [rename_eq_self hr, h]
  | remove location =>
      by_cases hold : ∃ old, fs.get? location = some (.file old)
      · obtain ⟨old, ho⟩ := hold
        rw [perform, get?_remove ho, if_neg (hf ho), h]
      · rw [perform, remove_eq_self fun old ho => hold ⟨old, ho⟩, h]

/-! ## Putting trees together -/

/-- The file system with a directory at a location, and all that it takes around it. -/
def withDirectory (fs : FileSystem) : Location → FileSystem
  | [] => fs
  | name :: place => (fs.withDirectory place).add (name :: place) .directory

/-- The file system with a file at a location, and the directories that it takes. -/
def withFile (fs : FileSystem) (location : Location) (contents : ByteArray) : FileSystem :=
  ((fs.withDirectory location.tail).add location (.file .empty)).fill location contents

/-- The file system without an entry and everything below it. -/
def without (fs : FileSystem) (name : String) (place : Location) : FileSystem where
  entries := fs.entries.filter fun e => !(name :: place).isSuffixOf e.1
  rooted := by
    have keep : ∀ b : Location, entryIn (fs.entries.filter
        fun e => !(name :: place).isSuffixOf e.1) b =
        if (name :: place).isSuffixOf b then none else entryIn fs.entries b := by
      intro b
      cases b with
      | nil => simp [entryIn, List.isSuffixOf]
      | cons other where_ =>
          simp only [entryIn]
          rw [lookup_filter fun c => !(name :: place).isSuffixOf c]
          cases (name :: place).isSuffixOf (other :: where_) <;> rfl
    intro other where_ hs
    rw [keep] at hs ⊢
    by_cases h1 : (name :: place).isSuffixOf (other :: where_)
    · rw [if_pos h1] at hs
      simp at hs
    · rw [if_neg h1] at hs
      have h2 : ¬(name :: place).isSuffixOf where_ := by
        intro h2
        exact h1 (List.isSuffixOf_iff_suffix.2
          ((List.isSuffixOf_iff_suffix.1 h2).trans (List.suffix_cons _ _)))
      rw [if_neg h2]
      exact fs.rooted other where_ hs

end FileSystem

end MockForge

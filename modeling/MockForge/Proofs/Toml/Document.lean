import Mathlib.Data.List.Nodup
import MockForge.Proofs.FileSystem.Lookup
import MockForge.Toml.Document

/-!
# What a document holds

A document is read statement by statement. Whatever statements follow one another, a document that
is put together has each of its keys once, so that a look-up says all there is under a key. Main
statement: `document_distinct`.
-/

namespace MockForge.Toml

/-! ## Statement by statement -/

section

variable {s rest tail tail' : List Char} {c : Char} {st : Statement}

theorem statements_of_nil (h : skipLines s = []) : statements s = .ok [] := by
  rw [statements]
  split
  · rfl
  · next h' => rw [h] at h'; cases h'

theorem statements_of_cons (h0 : skipLines s = c :: rest)
    (h : statement (c :: rest) = .ok (st, tail)) (h1 : lineEnd tail = .ok tail') :
    statements s = (statements tail').map (st :: ·) := by
  rw [statements]
  split
  · next h' => rw [h0] at h'; cases h'
  · next h' =>
    cases h0.symm.trans h'
    split
    · next h' => cases h.symm.trans h'
    · next h' =>
      cases h.symm.trans h'
      split
      · next h' => cases h1.symm.trans h'
      · next h' =>
        cases h1.symm.trans h'
        rfl

theorem document_of_statements {text : String} {sts : List Statement} {draft : Draft}
    (hmark : text.toList.head? ≠ some '\ufeff') (h : statements text.toList = .ok sts)
    (hd : sts.foldlM Draft.take ⟨[], []⟩ = .ok draft) :
    document text = .ok (entryValues draft.entries) := by
  unfold document
  split
  · next rest hr =>
    rw [hr] at hmark
    exact absurd rfl hmark
  · exact bind_eq_ok.2 ⟨sts, h, bind_eq_ok.2 ⟨draft, hd, rfl⟩⟩

end

/-- The keys of some entries are pairwise different. -/
def Distinct {α : Type} (entries : List (String × α)) : Prop := (entries.map Prod.fst).Nodup

theorem map_eq_ok {ε α β : Type} {x : Except ε α} {f : α → β} {b : β} :
    x.map f = .ok b ↔ ∃ a, x = .ok a ∧ f a = b := by
  cases x <;> simp [Except.map]

/-! ## Growing a table -/

namespace Tree

variable {key : String} {change : Option Node → Except Malformed Node} {entries after : Entries}

/-- A change under a key leaves the other keys alone, and at most adds its own at the end. -/
theorem keys_update (h : update key change entries = .ok after) :
    after.map Prod.fst =
      if key ∈ entries.map Prod.fst then entries.map Prod.fst
      else entries.map Prod.fst ++ [key] := by
  induction entries generalizing after with
  | nil =>
      obtain ⟨node, -, rfl⟩ := map_eq_ok.1 h
      simp
  | cons entry rest ih =>
      obtain ⟨other, node⟩ := entry
      unfold update at h
      split at h
      · next he =>
        obtain ⟨changed, -, rfl⟩ := map_eq_ok.1 h
        simp [he]
      · next he =>
        obtain ⟨grown, hg, rfl⟩ := map_eq_ok.1 h
        rw [List.map_cons, ih hg]
        by_cases hk : key ∈ rest.map Prod.fst
        · simp [hk]
        · simp [hk, Ne.symm he]

theorem update_distinct (h : update key change entries = .ok after) (hd : Distinct entries) :
    Distinct after := by
  unfold Distinct
  rw [keys_update h]
  split
  · exact hd
  · next hk =>
    rw [← List.concat_eq_append]
    exact hd.concat hk

/-- Only the last table on a path is given to the change, and any other gets one entry changed. -/
theorem within_distinct {way : Origin} {change : Origin → Entries → Except Malformed Entries}
    (hchange : ∀ here entries after, change here entries = .ok after → Distinct entries →
      Distinct after) {path : List String} {here : Origin}
    (h : within way change path here entries = .ok after) (hd : Distinct entries) :
    Distinct after := by
  cases path with
  | nil => exact hchange here entries after h hd
  | cons key path => exact update_distinct h hd

theorem addValue_distinct {path : List String} {value : Value}
    (h : addValue path key value entries = .ok after) (hd : Distinct entries) :
    Distinct after := by
  refine within_distinct (fun here entries after h hd => ?_) h hd
  split at h
  · exact update_distinct h hd
  · cases h

theorem declare_distinct {path : List String} (h : declare path key entries = .ok after)
    (hd : Distinct entries) : Distinct after :=
  within_distinct (fun _ _ _ h hd => update_distinct h hd) h hd

theorem declareRow_distinct {path : List String} (h : declareRow path key entries = .ok after)
    (hd : Distinct entries) : Distinct after :=
  within_distinct (fun _ _ _ h hd => update_distinct h hd) h hd

end Tree

/-! ## Putting a document together -/

theorem Draft.take_distinct {draft after : Draft} {st : Statement} (h : draft.take st = .ok after)
    (hd : Distinct draft.entries) : Distinct after.entries := by
  cases st with
  | entry path key value =>
      obtain ⟨entries, he, rfl⟩ := map_eq_ok.1 h
      exact Tree.within_distinct (fun _ _ _ h hd => Tree.addValue_distinct h hd) he hd
  | header path key =>
      obtain ⟨entries, he, rfl⟩ := map_eq_ok.1 h
      exact Tree.declare_distinct he hd
  | rowHeader path key =>
      obtain ⟨entries, he, rfl⟩ := map_eq_ok.1 h
      exact Tree.declareRow_distinct he hd

theorem foldlM_take_distinct {sts : List Statement} {draft after : Draft}
    (h : sts.foldlM Draft.take draft = .ok after) (hd : Distinct draft.entries) :
    Distinct after.entries := by
  induction sts generalizing draft with
  | nil =>
      cases h
      exact hd
  | cons st rest ih =>
      rw [List.foldlM_cons] at h
      obtain ⟨next, hn, h⟩ := bind_eq_ok.1 h
      exact ih h (Draft.take_distinct hn hd)

theorem keys_entryValues (entries : Tree.Entries) :
    (entryValues entries).map Prod.fst = entries.map Prod.fst := by
  induction entries with
  | nil => rfl
  | cons entry rest ih =>
      obtain ⟨key, node⟩ := entry
      rw [entryValues, List.map_cons, ih, List.map_cons]

/-- A document has each of its keys once. -/
theorem document_distinct {s : String} {table : Table} (h : document s = .ok table) :
    Distinct table := by
  obtain ⟨sts, -, h⟩ := bind_eq_ok.1 h
  obtain ⟨draft, hf, h⟩ := bind_eq_ok.1 h
  cases h
  unfold Distinct
  rw [keys_entryValues]
  exact foldlM_take_distinct hf List.nodup_nil

/-! ## Looking a key up -/

theorem lookup_eq_some_iff {α : Type} {entries : List (String × α)} (hd : Distinct entries)
    {key : String} {value : α} : entries.lookup key = some value ↔ (key, value) ∈ entries := by
  induction entries with
  | nil => simp
  | cons entry rest ih =>
      obtain ⟨other, found⟩ := entry
      unfold Distinct at hd
      rw [List.map_cons, List.nodup_cons] at hd
      by_cases hk : key = other
      · subst hk
        have hnot : (key, value) ∉ rest := fun hm =>
          hd.1 (List.mem_map.2 ⟨(key, value), hm, rfl⟩)
        simp [hnot, eq_comm]
      · have hb : (key == other) = false := beq_eq_false_iff_ne.2 hk
        simp [List.lookup_cons, hb, hk, ih hd.2]

end MockForge.Toml

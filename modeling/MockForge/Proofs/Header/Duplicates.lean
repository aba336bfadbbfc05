import Mathlib.Data.List.Duplicate
import MockForge.Header

/-!
# Names that several functions have

The report of a header's repeated names is determined: it holds exactly the names that at least two
functions have, each once, by the places of the first functions that have them. Main statements:
`isReport_duplicates` and `IsReport.eq_duplicates`.
-/

namespace MockForge

/-! ## First occurrences -/

section FirstOccurrences

variable {α : Type} [BEq α] [LawfulBEq α] {a b : α}

/-- An item in front of two others changes nothing about which of them comes first. -/
theorem idxOf_cons_lt_iff {c : α} (l : List α) (ha : c ≠ a) (hb : c ≠ b) :
    (c :: l).idxOf a < (c :: l).idxOf b ↔ l.idxOf a < l.idxOf b := by
  rw [List.idxOf_cons_ne l ha, List.idxOf_cons_ne l hb, Nat.succ_lt_succ_iff]

/-- Leaving out other items changes nothing about it either. -/
theorem idxOf_filter_lt_iff {p : α → Bool} (l : List α) (ha : p a) (hb : p b) :
    (l.filter p).idxOf a < (l.filter p).idxOf b ↔ l.idxOf a < l.idxOf b := by
  induction l with
  | nil => rfl
  | cons c l ih =>
      by_cases hc : p c
      · rw [List.filter_cons_of_pos hc]
        by_cases hca : c = a
        · by_cases hcb : c = b
          · simp [← hca, ← hcb]
          · simp [← hca, hcb]
        · by_cases hcb : c = b
          · simp [← hcb]
          · rw [idxOf_cons_lt_iff _ hca hcb, idxOf_cons_lt_iff _ hca hcb, ih]
      · have hca : c ≠ a := fun h => hc (h ▸ ha)
        have hcb : c ≠ b := fun h => hc (h ▸ hb)
        rw [List.filter_cons_of_neg hc, ih, idxOf_cons_lt_iff l hca hcb]

/-- Without repetitions, the items of a list stand in the order of their first occurrences. -/
theorem pairwise_idxOf_eraseDups (l : List α) :
    l.eraseDups.Pairwise fun a b => l.idxOf a < l.idxOf b := by
  -- What is left after the first item is not the tail but the tail without that item, so the
  -- recursion is on the length.
  cases l with
  | nil => exact .nil
  | cons c l =>
      have hne {a : α} (h : a ∈ (l.filter fun b => !b == c).eraseDups) : a ≠ c := by
        rw [List.mem_eraseDups, List.mem_filter] at h
        simpa using h.2
      rw [List.eraseDups_cons, List.pairwise_cons]
      constructor
      · intro a ha
        rw [List.idxOf_cons_self, List.idxOf_cons_ne l (hne ha).symm]
        exact Nat.succ_pos _
      · refine (pairwise_idxOf_eraseDups (l.filter fun b => !b == c)).imp_of_mem ?_
        intro a b ha hb hab
        rw [idxOf_filter_lt_iff l (by simp [hne ha]) (by simp [hne hb])] at hab
        rwa [idxOf_cons_lt_iff l (hne ha).symm (hne hb).symm]
termination_by l.length
decreasing_by
  exact Nat.lt_succ_of_le (List.length_filter_le _ _)

end FirstOccurrences

/-! ## The report -/

namespace Header

variable {h : Header} {name : String}

/-- At least two functions have a name. -/
def Repeats (h : Header) (name : String) : Prop :=
  ∃ f g, [f, g].Sublist h.functions ∧ f.name = name ∧ g.name = name

/-- The place of the first function that has a name. -/
def firstAt (h : Header) (name : String) : Nat := h.functions.findIdx (·.name = name)

/-- What a report of repeated names must be: the names that at least two functions have, each once,
in the order of their first functions. -/
structure IsReport (h : Header) (names : List String) : Prop where
  distinct : names.Nodup
  mem_iff : ∀ name, name ∈ names ↔ h.Repeats name
  ordered : names.Pairwise fun a b => h.firstAt a < h.firstAt b

theorem repeats_iff_count :
    h.Repeats name ↔ 1 < (h.functions.map Signature.name).count name := by
  show _ ↔ 2 ≤ _
  rw [← List.duplicate_iff_two_le_count, List.duplicate_iff_sublist, List.sublist_map_iff]
  constructor
  · rintro ⟨f, g, hs, hf, hg⟩
    exact ⟨[f, g], hs, by rw [List.map_cons, List.map_cons, hf, hg, List.map_nil]⟩
  · rintro ⟨found, hs, he⟩
    have hlength : found.length = 2 := by
      rw [← found.length_map Signature.name, ← he]
      rfl
    obtain ⟨f, g, rfl⟩ := List.length_eq_two.1 hlength
    simp only [List.map_cons, List.map_nil, List.cons.injEq, and_true] at he
    exact ⟨f, g, hs, he.1.symm, he.2.symm⟩

theorem firstAt_eq_idxOf (h : Header) (name : String) :
    h.firstAt name = (h.functions.map Signature.name).idxOf name := by
  rw [firstAt, List.idxOf, List.findIdx_map]
  rfl

theorem mem_duplicates_iff : name ∈ h.duplicates ↔ h.Repeats name := by
  rw [duplicates, List.mem_filter, List.mem_eraseDups, decide_eq_true_eq, repeats_iff_count]
  exact and_iff_right_of_imp fun hc => List.count_pos_iff.1 (Nat.zero_lt_of_lt hc)

theorem duplicates_ordered (h : Header) :
    h.duplicates.Pairwise fun a b => h.firstAt a < h.firstAt b := by
  simp only [firstAt_eq_idxOf]
  exact (pairwise_idxOf_eraseDups _).filter _

theorem isReport_duplicates (h : Header) : h.IsReport h.duplicates where
  distinct := h.duplicates_ordered.imp fun hlt he => by
    rw [he] at hlt
    exact Nat.lt_irrefl _ hlt
  mem_iff _ := mem_duplicates_iff
  ordered := h.duplicates_ordered

/-- There is only one list that can be the report. -/
theorem IsReport.eq_duplicates {names : List String} (hr : h.IsReport names) :
    names = h.duplicates := by
  have hperm : names.Perm h.duplicates := by
    rw [List.perm_ext_iff_of_nodup hr.distinct h.isReport_duplicates.distinct]
    intro name
    rw [hr.mem_iff, mem_duplicates_iff]
  refine hperm.eq_of_pairwise (fun a b _ _ hab hba => ?_) hr.ordered h.duplicates_ordered
  exact absurd (Nat.lt_trans hab hba) (Nat.lt_irrefl _)

/-- Nothing is reported when the names of the functions are all different. -/
theorem duplicates_eq_nil_iff :
    h.duplicates = [] ↔ h.functions.Pairwise fun f g => f.name ≠ g.name := by
  have hnodup : (h.functions.map Signature.name).Nodup ↔
      h.functions.Pairwise fun f g => f.name ≠ g.name := List.pairwise_map
  rw [← hnodup, List.nodup_iff_count_le_one, List.eq_nil_iff_forall_not_mem]
  simp only [mem_duplicates_iff, repeats_iff_count, Nat.not_lt]

theorem Repeats.of_perm {other : Header} (hp : h.functions.Perm other.functions)
    (hr : h.Repeats name) : other.Repeats name := by
  rw [repeats_iff_count] at hr ⊢
  rwa [← (hp.map Signature.name).count_eq name]

/-- The order of the functions does not matter for which names are reported. -/
theorem mem_duplicates_of_perm {other : Header} (hp : h.functions.Perm other.functions)
    (name : String) : name ∈ h.duplicates ↔ name ∈ other.duplicates := by
  rw [mem_duplicates_iff, mem_duplicates_iff]
  exact ⟨.of_perm hp, .of_perm hp.symm⟩

end Header

end MockForge

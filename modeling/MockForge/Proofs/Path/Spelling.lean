import Mathlib.Data.List.DropRight
import MockForge.Proofs.FileSystem.Above

/-!
# Spellings and components

Two spellings of a path can differ in dots and slashes that do not count. What counts are its steps:
its components without the dot that it may start with. Main statements: `steps_join`, the steps of a
path below another one, and `same_join_iff`, when two paths below one base have the same components.
-/

namespace MockForge.Path

/-! ## Pieces -/

/-- The pieces of a text are what core's splitting at slashes gives. -/
theorem pieces_eq_splitOn (s : List Char) : pieces s = s.splitOn '/' := by
  induction s with
  | nil => rfl
  | cons c s ih =>
      rw [List.splitOn_cons_eq_if_modifyHead, pieces, ih]
      by_cases hc : c = '/'
      · simp [hc]
      · simp only [hc, if_false, beq_iff_eq]
        cases hs : s.splitOn '/' with
        | nil => exact absurd hs (List.splitOn_ne_nil _ _)
        | cons piece more => rfl

theorem pieces_of_notMem {s : List Char} (h : '/' ∉ s) : pieces s = [s] := by
  rw [pieces_eq_splitOn, List.splitOn_eq_singleton h]

/-- No piece holds a slash. -/
theorem notMem_of_mem_pieces {s piece : List Char} (h : piece ∈ pieces s) : '/' ∉ piece := by
  induction s generalizing piece with
  | nil =>
      rw [pieces, List.mem_singleton] at h
      simp [h]
  | cons c s ih =>
      rw [pieces] at h
      split at h
      · rcases List.mem_cons.1 h with rfl | h
        · exact List.not_mem_nil
        · exact ih h
      · next hc =>
        cases hs : pieces s with
        | nil => exact absurd hs (pieces_ne_nil s)
        | cons first more =>
            rw [hs] at h ih
            rcases List.mem_cons.1 h with rfl | h
            · have := ih List.mem_cons_self
              simp [Ne.symm hc, this]
            · exact ih (List.mem_cons_of_mem _ h)

/-- The pieces of a text that is put together from pieces. -/
theorem pieces_joined {body : List (List Char)} (hb : body ≠ [])
    (h : ∀ piece ∈ body, '/' ∉ piece) : pieces (joined body) = body := by
  induction body with
  | nil => exact absurd rfl hb
  | cons piece body ih =>
      obtain ⟨hpiece, hbody⟩ := List.forall_mem_cons.1 h
      cases body with
      | nil => exact pieces_of_notMem hpiece
      | cons next body =>
          show pieces (piece ++ '/' :: joined (next :: body)) = _
          rw [pieces_append_slash, pieces_of_notMem hpiece, ih (List.cons_ne_nil _ _) hbody]
          rfl

/-- What is put after a text without slashes of its own becomes part of the last piece, which is
what stands after the last slash. -/
theorem exists_pieces_append (s : List Char) :
    ∃ before, ∀ t : List Char, '/' ∉ t →
      pieces (s ++ t) = before ++ [s.rtakeWhile (· ≠ '/') ++ t] := by
  have hlast (t : List Char) (ht : '/' ∉ t) : '/' ∉ s.rtakeWhile (· ≠ '/') ++ t := by
    rw [List.mem_append, not_or]
    exact ⟨fun hm => by simpa using List.mem_rtakeWhile_imp hm, ht⟩
  have hs := List.rdropWhile_append_rtakeWhile (p := fun c : Char => decide (c ≠ '/')) (l := s)
  rcases List.eq_nil_or_concat' (s.rdropWhile (· ≠ '/')) with hnil | ⟨front, c, hfront⟩
  · refine ⟨[], fun t ht => ?_⟩
    rw [hnil, List.nil_append] at hs
    rw [List.nil_append, ← pieces_of_notMem (hlast t ht), hs]
  · have hne : s.rdropWhile (· ≠ '/') ≠ [] := by
      rw [hfront]
      exact List.concat_ne_nil c front
    have hc : c = '/' := by
      have hend := List.rdropWhile_last_not (fun c : Char => decide (c ≠ '/')) s hne
      simp only [hfront, List.getLast_append_singleton] at hend
      simpa using hend
    refine ⟨pieces front, fun t ht => ?_⟩
    rw [hfront, hc, List.append_assoc, List.singleton_append] at hs
    rw [← pieces_of_notMem (hlast t ht), ← pieces_append_slash, ← List.cons_append,
      ← List.append_assoc, hs]

/-! ## Steps -/

/-- The components of a path without the dot that it may start with. -/
def steps (p : Path) : List Component := p.components.filter (· ≠ .here)

/-- The components that the pieces of a path stand for. -/
def trail (p : Path) : List Component :=
  (pieces p.spelling.toList).filterMap Component.ofPiece?

theorem ofPiece?_ne {piece : List Char} {component : Component}
    (h : Component.ofPiece? piece = some component) : component ≠ .here ∧ component ≠ .root := by
  unfold Component.ofPiece? at h
  split at h
  · cases h
  · split at h <;> · cases h; simp

theorem trail_ne {p : Path} {component : Component} (h : component ∈ p.trail) :
    component ≠ .here ∧ component ≠ .root := by
  obtain ⟨piece, -, hp⟩ := List.mem_filterMap.1 h
  exact ofPiece?_ne hp

/-- What a path starts with shows in its first character or in its first piece. -/
theorem parts_fst (p : Path) : p.parts.1 =
    if p.spelling.toList.head? = some '/' then .root
    else if (pieces p.spelling.toList).head? = some ['.'] then .here else .plain := by
  unfold parts
  cases hs : p.spelling.toList with
  | nil => rfl
  | cons c s =>
      by_cases hc : c = '/'
      · cases hp : pieces s with
        | nil => exact absurd hp (pieces_ne_nil s)
        | cons piece more => simp [pieces, hc, hp]
      · cases hp : pieces s with
        | nil => exact absurd hp (pieces_ne_nil s)
        | cons piece more =>
            simp only [pieces, hc, if_false, hp, List.head?_cons, Option.some.injEq]
            split
            · simp_all
            · simp_all
            · next hn =>
              split
              · next h => exact absurd (by rw [h]) (hn more)
              · rfl

theorem components_eq (p : Path) : p.components = p.parts.1.component?.toList ++ p.trail := by
  have hbody : p.trail = p.parts.2.filterMap Component.ofPiece? := by
    unfold trail parts
    split
    · next hp =>
      rw [hp]
      rfl
    · next hp =>
      rw [hp]
      rfl
    · rfl
  rw [components, hbody]

theorem steps_eq (p : Path) : p.steps =
    (if p.spelling.toList.head? = some '/' then [.root] else []) ++ p.trail := by
  have htrail : p.trail.filter (· ≠ .here) = p.trail :=
    List.filter_eq_self.2 fun component hc => by simpa using (trail_ne hc).1
  rw [steps, components_eq, List.filter_append, htrail, parts_fst]
  by_cases hroot : p.spelling.toList.head? = some '/'
  · rw [if_pos hroot, if_pos hroot]
    rfl
  · rw [if_neg hroot, if_neg hroot]
    split <;> rfl

/-- The steps of a path that does not start at the root. -/
theorem steps_of_plain {p : Path} (h : p.spelling.toList.head? ≠ some '/') : p.steps = p.trail := by
  rw [steps_eq, if_neg h, List.nil_append]

/-! ## Longer paths -/

section Join

variable {p q r : Path}

/-- A path below another one stands after a slash, except below the empty path. -/
theorem toList_join_of_ne (hp : p.spelling ≠ "") (hq : q.spelling.toList.head? ≠ some '/') :
    ∃ front, (p.join q).spelling.toList = front ++ '/' :: q.spelling.toList ∧
      (p.spelling.toList = front ∨ p.spelling.toList = front ++ ['/']) := by
  rw [join, if_neg hq]
  split
  · next h =>
    rw [Bool.or_eq_true, String.isEmpty_iff, or_iff_right hp, decide_eq_true_eq] at h
    obtain ⟨front, hfront⟩ := List.getLast?_eq_some_iff.1 h
    exact ⟨front, by simp [hfront], .inr hfront⟩
  · exact ⟨p.spelling.toList, by simp, .inl rfl⟩

theorem join_of_empty (hp : p.spelling = "") : p.join q = q := by
  rw [join]
  split
  · rfl
  · rw [if_pos (by simp [hp]), hp, String.empty_append]

/-- The pieces of a path below another one are those of both, less an empty one between them. -/
theorem pieces_join (hq : q.spelling.toList.head? ≠ some '/') :
    ∃ front, pieces (p.join q).spelling.toList = front ++ pieces q.spelling.toList ∧
      ∃ n, pieces p.spelling.toList = front ++ List.replicate n [] := by
  by_cases hp : p.spelling = ""
  · refine ⟨[], ?_, 1, ?_⟩
    · rw [join_of_empty hp, List.nil_append]
    · rw [hp]
      rfl
  · obtain ⟨front, hjoin, hfront | hfront⟩ := toList_join_of_ne hp hq
    · refine ⟨pieces front, by rw [hjoin, pieces_append_slash], 0, ?_⟩
      rw [hfront, List.replicate_zero, List.append_nil]
    · refine ⟨pieces front, by rw [hjoin, pieces_append_slash], 1, ?_⟩
      rw [hfront, pieces_append_slash]
      rfl

theorem trail_join (hq : q.spelling.toList.head? ≠ some '/') :
    (p.join q).trail = p.trail ++ q.trail := by
  obtain ⟨front, hjoin, n, hp⟩ := pieces_join hq
  have hidle : (List.replicate n ([] : List Char)).filterMap Component.ofPiece? = [] :=
    List.filterMap_eq_nil_iff.2 fun piece h => by rw [List.eq_of_mem_replicate h]; rfl
  rw [trail, trail, trail, hjoin, hp, List.filterMap_append, List.filterMap_append, hidle,
    List.append_nil]

theorem head?_join (hp : p.spelling ≠ "") (hq : q.spelling.toList.head? ≠ some '/') :
    (p.join q).spelling.toList.head? = p.spelling.toList.head? := by
  obtain ⟨front, hjoin, hfront⟩ := toList_join_of_ne hp hq
  rw [hjoin]
  cases front with
  | nil => rcases hfront with h | h <;> simp_all
  | cons c front => rcases hfront with h | h <;> simp [h]

/-- What a path starts with stays when it goes on, unless it was empty. -/
theorem parts_fst_join (hp : p.spelling ≠ "") (hq : q.spelling.toList.head? ≠ some '/') :
    (p.join q).parts.1 = p.parts.1 := by
  have hpieces : (pieces (p.join q).spelling.toList).head? = (pieces p.spelling.toList).head? := by
    obtain ⟨front, hjoin, hfront⟩ := toList_join_of_ne hp hq
    obtain ⟨piece, more, hm⟩ := List.exists_cons_of_ne_nil (pieces_ne_nil front)
    rw [hjoin, pieces_append_slash, hm]
    rcases hfront with h | h <;> simp [h, hm, pieces_append_slash]
  rw [parts_fst, parts_fst, hpieces, head?_join hp hq]

/-- The steps of a path below another one are those of both. -/
theorem steps_join (hq : q.spelling.toList.head? ≠ some '/') :
    (p.join q).steps = p.steps ++ q.steps := by
  rw [steps_eq, steps_eq, steps_eq, trail_join hq, if_neg hq]
  by_cases hp : p.spelling = ""
  · rw [join_of_empty hp, if_neg hq, hp]
    rfl
  · rw [head?_join hp hq, List.append_assoc, List.nil_append]

/-- What a path starts with is no part of its trail. -/
theorem start_eq {start other : Start} {front back : List Component}
    (hf : ∀ component ∈ front, component ≠ .here ∧ component ≠ .root)
    (hb : ∀ component ∈ back, component ≠ .here ∧ component ≠ .root)
    (h : start.component?.toList ++ front = other.component?.toList ++ back) : start = other := by
  cases start <;> cases other <;> simp [Start.component?] at h <;> grind

/-- Two paths have the same components when they start alike and have the same trail. -/
theorem same_iff : p.same q = true ↔ p.parts.1 = q.parts.1 ∧ p.trail = q.trail := by
  rw [same, decide_eq_true_eq, components_eq, components_eq]
  constructor
  · intro h
    have hs := start_eq (fun _ => trail_ne) (fun _ => trail_ne) h
    rw [hs, List.append_cancel_left_eq] at h
    exact ⟨hs, h⟩
  · rintro ⟨hs, ht⟩
    rw [hs, ht]

/-- Below one base two paths have the same components when they have the same steps. Below the empty
one they must start alike as well. -/
theorem same_join_iff (hq : q.spelling.toList.head? ≠ some '/')
    (hr : r.spelling.toList.head? ≠ some '/') :
    (p.join q).same (p.join r) = true ↔
      q.steps = r.steps ∧ (p.spelling = "" → q.parts.1 = r.parts.1) := by
  rw [same_iff, steps_of_plain hq, steps_of_plain hr]
  by_cases hp : p.spelling = ""
  · rw [join_of_empty hp, join_of_empty hp, and_comm]
    simp [hp]
  · rw [parts_fst_join hp hq, parts_fst_join hp hr, trail_join hq, trail_join hr]
    simp [hp]

end Join

end MockForge.Path

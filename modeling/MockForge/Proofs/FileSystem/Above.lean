import MockForge.Proofs.FileSystem.Contract

/-!
# The directories above a path

A path above another one is its text up to a slash, so a path that leads somewhere leads through
all directories above it. Main statement: `directory_of_parents`.
-/

namespace MockForge

namespace Path

/-! ## Texts -/

/-- The pieces on both sides of a slash are the pieces of the whole. -/
theorem pieces_append_slash (s t : List Char) : pieces (s ++ '/' :: t) = pieces s ++ pieces t := by
  induction s with
  | nil => simp [pieces]
  | cons c s ih =>
      by_cases hc : c = '/'
      · simp [pieces, hc, ih]
      · cases hs : pieces s with
        | nil => exact absurd hs (pieces_ne_nil s)
        | cons piece more => simp [pieces, hc, ih, hs]

theorem joined_append {first rest : List (List Char)} (hf : first ≠ []) (hr : rest ≠ []) :
    joined (first ++ rest) = joined first ++ '/' :: joined rest := by
  induction first with
  | nil => exact absurd rfl hf
  | cons piece first ih =>
      cases first with
      | nil =>
          obtain ⟨next, rest, rfl⟩ := List.exists_cons_of_ne_nil hr
          rfl
      | cons next first =>
          have := ih (List.cons_ne_nil _ _)
          rw [List.cons_append] at this
          simp [joined, this]

/-- What stands in the text of a path before its body. -/
def Start.text : Start → List Char
  | .plain => []
  | .here => ['.', '/']
  | .root => ['/']

theorem assemble_toList {start : Start} {body : List (List Char)} (hb : body ≠ []) :
    (assemble start body).spelling.toList = start.text ++ joined body := by
  cases start with
  | plain | root => simp [assemble, Start.text]
  | here => cases body with
    | nil => exact absurd rfl hb
    | cons piece body => simp [assemble, Start.text]

theorem toList_of_parts {p : Path} (hb : p.parts.2 ≠ []) :
    p.spelling.toList = p.parts.1.text ++ joined p.parts.2 := by
  have hj := joined_pieces p.spelling.toList
  unfold parts at hb ⊢
  split
  · next piece more hp =>
    rw [← hj, hp]
    rfl
  · next more hp =>
    rw [hp] at hb
    obtain ⟨next, more, rfl⟩ := List.exists_cons_of_ne_nil hb
    rw [← hj, hp]
    rfl
  · exact hj.symm

/-! ## Parents -/

/-- A path above, or the path itself, is a beginning of its pieces, or all that it starts with. -/
theorem mem_lineage {start : Start} {pieces : List (List Char)} {above : Path}
    (h : above ∈ lineage start pieces) :
    (∃ dropped earlier, pieces = dropped ++ earlier ∧ earlier ≠ [] ∧
      above = assemble start earlier.reverse) ∨ above ∈ lineage start [] := by
  induction pieces with
  | nil => exact .inr h
  | cons piece pieces ih =>
      have hlonger (hi : above ∈ lineage start pieces) :
          (∃ dropped earlier, piece :: pieces = dropped ++ earlier ∧ earlier ≠ [] ∧
            above = assemble start earlier.reverse) ∨ above ∈ lineage start [] := by
        rcases ih hi with ⟨dropped, earlier, rfl, he, ha⟩ | ha
        · exact .inl ⟨piece :: dropped, earlier, rfl, he, ha⟩
        · exact .inr ha
      rw [lineage] at h
      split at h
      · exact hlonger h
      · rcases List.mem_cons.1 h with ha | h
        · exact .inl ⟨[], piece :: pieces, rfl, List.cons_ne_nil _ _, ha⟩
        · exact hlonger h

/-- A path above is a shorter beginning of the pieces. -/
theorem mem_tail_lineage {start : Start} {pieces : List (List Char)} {above : Path}
    (h : above ∈ (lineage start pieces).tail) :
    (∃ dropped earlier, pieces = dropped ++ earlier ∧ dropped ≠ [] ∧ earlier ≠ [] ∧
      above = assemble start earlier.reverse) ∨
    above ∈ lineage start [] ∧ (pieces = [] → above ∈ (lineage start []).tail) := by
  induction pieces with
  | nil => exact .inr ⟨List.mem_of_mem_tail h, fun _ => h⟩
  | cons piece pieces ih =>
      rw [lineage] at h
      split at h
      · rcases ih h with ⟨dropped, earlier, rfl, hd, he, ha⟩ | ⟨ha, -⟩
        · exact .inl ⟨piece :: dropped, earlier, rfl, List.cons_ne_nil _ _, he, ha⟩
        · exact .inr ⟨ha, by simp⟩
      · rcases mem_lineage h with ⟨dropped, earlier, rfl, he, ha⟩ | ha
        · exact .inl ⟨piece :: dropped, earlier, rfl, List.cons_ne_nil _ _, he, ha⟩
        · exact .inr ⟨ha, by simp⟩

/-- A path above is empty, or the root, or the text up to a slash. -/
theorem toList_of_mem_parents {p above : Path} (h : above ∈ p.parents) :
    above.spelling = "" ∨ above.spelling = "/" ∨
      ∃ rest, p.spelling.toList = above.spelling.toList ++ '/' :: rest := by
  rcases mem_tail_lineage h with ⟨dropped, earlier, hsplit, hd, he, rfl⟩ | ⟨ha, hnil⟩
  · have hbody : p.parts.2 = earlier.reverse ++ dropped.reverse := by
      rw [← List.reverse_append, ← hsplit, List.reverse_reverse]
    have hd : dropped.reverse ≠ [] := by simpa using hd
    have he : earlier.reverse ≠ [] := by simpa using he
    refine .inr (.inr ⟨joined dropped.reverse, ?_⟩)
    rw [toList_of_parts (by simp [hbody, he]), hbody, joined_append he hd, assemble_toList he,
      List.append_assoc]
  · cases hs : p.parts.1 with
    | plain =>
        rw [hs, lineage, List.mem_singleton] at ha
        exact .inl (by rw [ha])
    | root =>
        rw [hs, lineage, List.mem_singleton] at ha
        exact .inr (.inl (by rw [ha]))
    | here =>
        rw [hs] at ha hnil
        simp only [lineage, List.mem_cons, List.not_mem_nil, or_false] at ha
        rcases ha with rfl | rfl
        · -- The dot is above the path only when something stands after it.
          by_cases hb : p.parts.2 = []
          · have := hnil (by simp [hb])
            simp [lineage] at this
          · refine .inr (.inr ⟨joined p.parts.2, ?_⟩)
            rw [toList_of_parts hb, hs]
            rfl
        · exact .inl rfl

end Path

namespace FileSystem

variable {fs : FileSystem} {p above : Path} {place location : Location}

/-! ## Look-ups -/

/-- From wherever pieces lead further there is a directory. -/
theorem directory_of_walk {pieces : List (List Char)} (hp : pieces ≠ [])
    (h : fs.walk place pieces = .ok location) : fs.get? place = some .directory := by
  obtain ⟨piece, pieces, rfl⟩ := List.exists_cons_of_ne_nil hp
  simp only [walk, List.foldlM_cons, bind_eq_ok] at h
  obtain ⟨next, hn, -⟩ := h
  unfold step at hn
  split at hn
  · cases hr : fs.requireDirectory place with
    | error fault => simp [hr, Except.map] at hn
    | ok => exact requireDirectory_eq_ok_iff.1 hr
  · cases hr : fs.requireDirectory place with
    | error fault => simp [hr, Except.map] at hn
    | ok => exact requireDirectory_eq_ok_iff.1 hr
  · exact (nameIn_eq_ok_iff.1 hn).1

theorem walk_append {first rest : List (List Char)} :
    fs.walk place (first ++ rest) = fs.walk place first >>= fun l => fs.walk l rest := by
  simp only [walk, List.foldlM_append]

/-- The beginning of a path that can be looked up can be looked up itself. -/
theorem admitted_of_append {pieces : List (List Char)} {rest : List Char}
    (h : admitted p = .ok pieces) (hp : p.spelling.toList = above.spelling.toList ++ rest)
    (hne : above.spelling ≠ "") : admitted above = .ok (Path.pieces above.spelling.toList) := by
  unfold admitted at h
  split at h
  · simp at h
  · next hnul =>
    split at h
    · simp at h
    · split at h
      · simp at h
      · next hsize =>
        have hs : p.spelling = above.spelling ++ String.ofList rest := by
          rw [← String.toList_inj, String.toList_append, String.toList_ofList, hp]
        have hle : above.spelling.utf8ByteSize ≤ p.spelling.utf8ByteSize := by
          rw [hs, String.utf8ByteSize_append]
          exact Nat.le_add_right _ _
        have hnul : ¬above.spelling.toList.contains '\x00' = true := by
          rw [hp, List.contains_append] at hnul
          exact fun hc => hnul (by rw [hc, Bool.true_or])
        have hempty : ¬above.spelling.isEmpty = true := by
          rw [String.isEmpty_iff]
          exact hne
        rw [admitted, if_neg hnul, if_neg hempty, if_neg fun hlt => hsize (hlt.trans_le hle)]

theorem directory_eq_ok_of_locate (hne : p.spelling ≠ "") (h : fs.locate p = .ok location)
    (hd : fs.get? location = some .directory) : fs.directory p = .ok location := by
  simp [directory, hne, h, requireDirectory_eq_ok_iff.2 hd, bind, Except.bind, pure, Except.pure]

/-- A path that leads somewhere leads through a directory for each path above it. -/
theorem directory_of_parents (ha : above ∈ p.parents) (h : fs.locate p = .ok location) :
    ∃ b, fs.directory above = .ok b := by
  rw [locate, bind_eq_ok] at h
  obtain ⟨pieces, hp, hw⟩ := h
  by_cases hne : above.spelling = ""
  · exact ⟨[], by simp [directory, hne, pure, Except.pure]⟩
  · rcases Path.toList_of_mem_parents ha with he | hroot | ⟨rest, hrest⟩
    · exact absurd he hne
    · refine ⟨[], directory_eq_ok_of_locate hne ?_ rfl⟩
      rw [show above = ⟨"/"⟩ from congrArg Path.mk hroot]
      rfl
    · rw [admitted_eq_ok hp, hrest, Path.pieces_append_slash, walk_append, bind_eq_ok] at hw
      obtain ⟨b, hb, hlater⟩ := hw
      refine ⟨b, directory_eq_ok_of_locate hne ?_ (directory_of_walk (Path.pieces_ne_nil _) hlater)⟩
      rw [locate, bind_eq_ok]
      exact ⟨_, admitted_of_append hp hrest hne, hb⟩

theorem get?_of_parents {b : Location} (ha : above ∈ p.parents) (h : fs.locate p = .ok location)
    (hb : fs.locate above = .ok b) : fs.get? b = some .directory := by
  obtain ⟨b', hb'⟩ := directory_of_parents ha h
  unfold directory at hb'
  split at hb'
  · next hempty =>
    -- Nothing can be looked up by the empty path.
    simp [locate, admitted, hempty, bind, Except.bind] at hb
  · simp only [bind_eq_ok, hb, pure, Except.pure, Except.ok.injEq] at hb'
    obtain ⟨l, rfl, ⟨⟩, hd, rfl⟩ := hb'
    exact requireDirectory_eq_ok_iff.1 hd

end FileSystem

end MockForge

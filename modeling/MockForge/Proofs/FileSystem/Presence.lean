import MockForge.Proofs.FileSystem.Above
import MockForge.Writer

/-!
# Paths that lead to what is there

A path that leads to an entry makes no new one, and a file can be moved to it if it leads to a
file. Main statements: `vacancy_of_present` and `destination_of_file`.
-/

namespace MockForge.FileSystem

variable {fs later : FileSystem} {p : Path} {place location : Location}

/-! ## As long as no directory goes away -/

theorem directory_of_stay (hs : DirectoriesStay fs later) (h : fs.directory p = .ok place) :
    later.directory p = .ok place := by
  unfold directory at h ⊢
  split at h
  · next hempty => rwa [if_pos hempty]
  · next hempty =>
    simp only [bind_eq_ok] at h
    obtain ⟨found, hl, ⟨⟩, hd, hp⟩ := h
    rw [if_neg hempty]
    simp only [bind_eq_ok]
    exact ⟨found, locate_of_stay hs hl, (),
      requireDirectory_eq_ok_iff.2 (hs (requireDirectory_eq_ok_iff.1 hd)), hp⟩

theorem aim_of_stay (hs : DirectoriesStay fs later) {unnamed : FileFault} {slashed : Bool}
    (h : fs.aim p unnamed = .ok (location, slashed)) :
    later.aim p unnamed = .ok (location, slashed) := by
  rw [aim, bind_eq_ok] at h ⊢
  obtain ⟨⟨named, slashes⟩, ht, h⟩ := h
  refine ⟨(named, slashes), ht, ?_⟩
  cases named with
  | nil => simp at h
  | cons last earlier =>
      simp only [bind_eq_ok] at h ⊢
      obtain ⟨around, hw, h⟩ := h
      refine ⟨around, walk_of_stay hs hw, ?_⟩
      split at h
      · simp [bind_eq_ok] at h
      · next hi =>
        simp only [bind_eq_ok] at h
        obtain ⟨found, hname, he⟩ := h
        obtain ⟨hd, hsize, hfound⟩ := nameIn_eq_ok_iff.1 hname
        rw [if_neg hi]
        simp only [bind_eq_ok]
        exact ⟨found, nameIn_eq_ok_iff.2 ⟨hs hd, hsize, hfound⟩, he⟩

/-- A destination stays one until a directory is there. -/
theorem destination_of_stay (hs : DirectoriesStay fs later)
    (h : fs.destination p = .ok location) (hv : later.get? location ≠ some .directory) :
    later.destination p = .ok location := by
  rw [destination, bind_eq_ok] at h ⊢
  obtain ⟨⟨found, slashed⟩, ha, h⟩ := h
  refine ⟨(found, slashed), aim_of_stay hs ha, ?_⟩
  dsimp only at h ⊢
  split at h
  · cases h
  · next hslash =>
    split at h
    · cases h
    · obtain rfl := Except.ok.inj h
      rw [if_neg hslash, if_neg hv]

/-! ## Where a path leads -/

/-- A piece that is no name leads from a directory to a directory. -/
theorem directory_of_step {piece : List Char}
    (hi : (Path.isIdle piece || piece = ['.', '.']) = true) (hd : fs.get? place = some .directory)
    (h : fs.step place piece = .ok location) :
    fs.get? location = some .directory := by
  rw [step_eq_ok h]
  rw [Bool.or_eq_true, decide_eq_true_eq] at hi
  rcases hi with hi | rfl
  · rwa [heading, Path.Component.ofPiece?, if_pos hi]
  · show fs.get? place.tail = some .directory
    cases place with
    | nil => rfl
    | cons name around => exact get?_tail hd

/-- The empty pieces at the end of a path lead nowhere else, and only from a directory. -/
theorem walk_replicate_eq_ok {n : Nat}
    (h : fs.walk place (List.replicate n []) = .ok location) :
    location = place ∧ (n ≠ 0 → fs.get? place = some .directory) := by
  cases n with
  | zero => exact ⟨(Except.ok.inj h).symm, fun hn => absurd rfl hn⟩
  | succ n =>
      have hd := directory_of_walk (List.cons_ne_nil _ _) h
      exact ⟨Except.ok.inj (h.symm.trans (walk_replicate hd _)), fun _ => hd⟩

/-- A path that leads somewhere aims at that location. If it does not end in a name, or if slashes
follow the name, a directory is there. -/
theorem aim_cases (h : fs.locate p = .ok location) (unnamed : FileFault) :
    (fs.aim p unnamed = .error unnamed ∧ fs.get? location = some .directory) ∨
      ∃ slashed, fs.aim p unnamed = .ok (location, slashed) ∧
        (slashed = true → fs.get? location = some .directory) := by
  rw [locate, bind_eq_ok] at h
  obtain ⟨pieces, ha, hw⟩ := h
  obtain ⟨⟨named, slashed⟩, ht⟩ : ∃ result, target p = .ok result := by
    rw [target, ha]
    exact ⟨_, rfl⟩
  obtain ⟨n, ha', hslashed⟩ := target_eq_ok ht
  obtain rfl := Except.ok.inj (ha.symm.trans ha')
  rw [walk_append, bind_eq_ok] at hw
  obtain ⟨reached, hreached, hrest⟩ := hw
  obtain ⟨rfl, hend⟩ := walk_replicate_eq_ok hrest
  rw [aim, ht]
  cases named with
  | nil =>
      obtain rfl := Except.ok.inj hreached
      exact .inl ⟨rfl, rfl⟩
  | cons last earlier =>
      rw [List.reverse_cons, walk_append, bind_eq_ok] at hreached
      obtain ⟨around, haround, hlast⟩ := hreached
      have hd := directory_of_walk (List.cons_ne_nil _ _) hlast
      replace hlast : fs.step around last = .ok location := by
        rw [walk, List.foldlM_cons, bind_eq_ok] at hlast
        obtain ⟨next, hnext, hnil⟩ := hlast
        rwa [← Except.ok.inj hnil]
      show (fs.walk [] earlier.reverse >>= fun around => _) = _ ∧ _ ∨
        ∃ _, (fs.walk [] earlier.reverse >>= fun around => _) = _ ∧ _
      rw [haround]
      by_cases hi : (Path.isIdle last || last = ['.', '.']) = true
      · refine .inl ⟨?_, directory_of_step hi hd hlast⟩
        show (if _ then _ else _) = _
        rw [if_pos hi, requireDirectory_eq_ok_iff.2 hd]
        rfl
      · rw [step_name hi] at hlast
        refine .inr ⟨slashed, ?_, fun hs => hend ?_⟩
        · show (if _ then _ else _) = _
          rw [if_neg hi, hlast]
          rfl
        · rw [hslashed, decide_eq_true_eq] at hs
          exact hs.ne'

/-- Nothing new is made where a path leads to something. -/
theorem vacancy_of_present {entry : Entry} (h : fs.locate p = .ok location)
    (he : fs.get? location = some entry) : fs.vacancy p = .error .alreadyExists := by
  rw [vacancy]
  rcases aim_cases h .alreadyExists with ⟨ha, -⟩ | ⟨slashed, ha, -⟩
  · rw [ha]
    rfl
  · rw [ha]
    exact if_pos (by rw [he]; rfl)

/-- A file can be moved to where a path leads to one. -/
theorem destination_of_file {contents : ByteArray} (h : fs.locate p = .ok location)
    (hf : fs.get? location = some (.file contents)) : fs.destination p = .ok location := by
  rw [destination]
  rcases aim_cases h .busy with ⟨-, hd⟩ | ⟨slashed, ha, hd⟩
  · rw [hf] at hd
    cases hd
  · have hslash : ¬slashed = true := by
      intro hs
      rw [hd hs] at hf
      cases hf
    rw [ha]
    show (if _ then _ else if _ then _ else _) = _
    rw [if_neg hslash, if_neg (by simp [hf])]

/-! ## The directory of a file -/

/-- A path that leads somewhere has its directory. -/
theorem directory_parent (h : fs.locate p = .ok location) :
    ∃ place, fs.directory (Writer.parent p) = .ok place := by
  unfold Writer.parent Writer.surroundings
  split
  · exact ⟨[], rfl⟩
  · next hne =>
    cases hp : p.parents with
    | nil => exact absurd hp hne
    | cons above rest => exact directory_of_parents (by rw [hp]; exact List.mem_cons_self) h

end MockForge.FileSystem

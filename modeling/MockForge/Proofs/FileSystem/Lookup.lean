import MockForge.FileSystem.Access
import Mathlib.Data.List.TakeWhile

/-!
# What a look-up relies on

A path is followed from directory to directory, so as long as no directory goes away it keeps
leading where it led. Main statements: `locate_of_stay`, and what is known of the location at which
a path makes an entry or to which it moves a file.
-/

namespace MockForge

/-- Two steps succeed together when each of them does. -/
theorem bind_eq_ok {ε α β : Type} {x : Except ε α} {f : α → Except ε β} {b : β} :
    (x >>= f) = .ok b ↔ ∃ a, x = .ok a ∧ f a = .ok b := by
  cases x <;> simp [bind, Except.bind]

/-- Two steps fail when one of them does. -/
theorem bind_eq_error {ε α β : Type} {x : Except ε α} {f : α → Except ε β} {e : ε} :
    (x >>= f) = .error e ↔ x = .error e ∨ ∃ a, x = .ok a ∧ f a = .error e := by
  cases x <;> simp [bind, Except.bind]

namespace FileSystem

variable {fs later : FileSystem} {p : Path} {place location : Location}

/-- Every directory of the one file system is a directory of the other. -/
def DirectoriesStay (fs later : FileSystem) : Prop :=
  ∀ ⦃b : Location⦄, fs.get? b = some .directory → later.get? b = some .directory

theorem DirectoriesStay.refl (fs : FileSystem) : DirectoriesStay fs fs := fun _ h => h

theorem DirectoriesStay.trans {middle : FileSystem} (h1 : DirectoriesStay fs middle)
    (h2 : DirectoriesStay middle later) : DirectoriesStay fs later := fun _ h => h2 (h1 h)

/-- Where something is, is not where nothing is. -/
theorem ne_of_vacant {b : Location} {entry : Entry} (hv : fs.get? location = none)
    (hb : fs.get? b = some entry) : b ≠ location := by
  rintro rfl
  rw [hv] at hb
  simp at hb

/-! ## Single steps -/

theorem requireDirectory_eq_ok_iff :
    fs.requireDirectory place = .ok () ↔ fs.get? place = some .directory := by
  unfold requireDirectory
  split <;> simp_all

theorem nameIn_eq_ok_iff {piece : List Char} :
    fs.nameIn place piece = .ok location ↔
      fs.get? place = some .directory ∧
        (String.ofList piece).utf8ByteSize ≤ maxNameSize ∧
        location = String.ofList piece :: place := by
  simp only [nameIn, bind_eq_ok]
  constructor
  · rintro ⟨⟨⟩, hd, hn⟩
    split at hn
    · simp at hn
    · next hs =>
      simp only [Except.ok.injEq] at hn
      exact ⟨requireDirectory_eq_ok_iff.1 hd, Nat.le_of_not_lt hs, hn.symm⟩
  · rintro ⟨hd, hs, rfl⟩
    exact ⟨(), requireDirectory_eq_ok_iff.2 hd, if_neg (Nat.not_lt_of_le hs)⟩

theorem step_of_stay (hs : DirectoriesStay fs later) {piece : List Char}
    (h : fs.step place piece = .ok location) : later.step place piece = .ok location := by
  have hd {l : Location} (hl : fs.requireDirectory l = .ok ()) :
      later.requireDirectory l = .ok () :=
    requireDirectory_eq_ok_iff.2 (hs (requireDirectory_eq_ok_iff.1 hl))
  unfold step at h ⊢
  split at h
  · cases hr : fs.requireDirectory place with
    | error fault => simp [hr, Except.map] at h
    | ok => rw [hr] at h; rw [hd hr]; exact h
  · cases hr : fs.requireDirectory place with
    | error fault => simp [hr, Except.map] at h
    | ok => rw [hr] at h; rw [hd hr]; exact h
  · obtain ⟨hp, hn⟩ := nameIn_eq_ok_iff.1 h
    exact nameIn_eq_ok_iff.2 ⟨hs hp, hn⟩

/-- A step by a name leads to the entry of that name. -/
theorem step_name {piece : List Char} (hi : ¬(Path.isIdle piece || piece = ['.', '.']) = true) :
    fs.step place piece = fs.nameIn place piece := by
  simp only [Bool.or_eq_true, decide_eq_true_eq, not_or] at hi
  simp [step, Path.Component.ofPiece?, hi.1, hi.2]

/-! ## Whole paths -/

theorem step_eq_ok {piece : List Char} (h : fs.step place piece = .ok location) :
    location = heading place piece := by
  unfold step at h
  unfold heading
  split at h
  · cases hr : fs.requireDirectory place with
    | error fault => simp [hr, Except.map] at h
    | ok => simpa [hr, Except.map, eq_comm] using h
  · cases hr : fs.requireDirectory place with
    | error fault => simp [hr, Except.map] at h
    | ok => simpa [hr, Except.map, eq_comm] using h
  · exact (nameIn_eq_ok_iff.1 h).2.2

theorem walk_eq_ok {pieces : List (List Char)} (h : fs.walk place pieces = .ok location) :
    location ∈ passed place pieces := by
  induction pieces generalizing place with
  | nil =>
      simp only [walk, List.foldlM_nil, pure, Except.pure, Except.ok.injEq] at h
      simp [passed, h]
  | cons piece pieces ih =>
      simp only [walk, List.foldlM_cons, bind_eq_ok] at h ih
      obtain ⟨next, h1, h2⟩ := h
      rw [step_eq_ok h1] at h2
      exact List.mem_cons_of_mem _ (ih h2)

theorem walk_of_stay (hs : DirectoriesStay fs later) {pieces : List (List Char)}
    (h : fs.walk place pieces = .ok location) : later.walk place pieces = .ok location := by
  induction pieces generalizing place with
  | nil => exact h
  | cons piece pieces ih =>
      simp only [walk, List.foldlM_cons, bind_eq_ok] at h ih ⊢
      obtain ⟨next, h1, h2⟩ := h
      exact ⟨next, step_of_stay hs h1, ih h2⟩

theorem locate_of_stay (hs : DirectoriesStay fs later) (h : fs.locate p = .ok location) :
    later.locate p = .ok location := by
  simp only [locate, bind_eq_ok] at h ⊢
  obtain ⟨pieces, ha, hw⟩ := h
  exact ⟨pieces, ha, walk_of_stay hs hw⟩

/-- A directory can be left by empty pieces, which lead nowhere. -/
theorem walk_replicate (h : fs.get? place = some .directory) (n : Nat) :
    fs.walk place (List.replicate n []) = .ok place := by
  have hs : fs.step place [] = .ok place := by
    rw [show fs.step place [] = (fs.requireDirectory place).map fun _ => place from rfl,
      requireDirectory_eq_ok_iff.2 h]
    rfl
  induction n with
  | zero => rfl
  | succ n ih =>
      rw [List.replicate_succ, walk, List.foldlM_cons, hs]
      exact ih

/-- The pieces of a path, as a target sees them: those up to the last one that is not empty, and
after them some empty ones. -/
theorem target_eq_ok {named : List (List Char)} {slashed : Bool}
    (h : target p = .ok (named, slashed)) :
    ∃ n, admitted p = .ok (named.reverse ++ List.replicate n []) ∧ slashed = decide (0 < n) := by
  simp only [target, bind_eq_ok, pure, Except.pure, Except.ok.injEq, Prod.mk.injEq] at h
  obtain ⟨pieces, ha, hn, hl⟩ := h
  have hidle : pieces.reverse.takeWhile (· = []) =
      List.replicate (pieces.reverse.takeWhile (· = [])).length [] := by
    refine List.eq_replicate_iff.2 ⟨rfl, fun piece hp => ?_⟩
    simpa using List.mem_takeWhile_imp hp
  have hsplit := List.takeWhile_append_dropWhile (p := (· = [])) (l := pieces.reverse)
  rw [hn, hidle] at hsplit
  have hp : pieces = named.reverse ++
      List.replicate (pieces.reverse.takeWhile (· = [])).length [] := by
    have := congrArg List.reverse hsplit
    simpa using this.symm
  refine ⟨_, hp ▸ ha, ?_⟩
  rw [← hl, hn]
  have hlen := congrArg List.length hp
  simp only [List.length_append, List.length_reverse, List.length_replicate] at hlen
  simp only [decide_eq_decide]
  omega

theorem admitted_eq_ok {pieces : List (List Char)} (h : admitted p = .ok pieces) :
    pieces = Path.pieces p.spelling.toList := by
  unfold admitted at h
  split at h
  · simp at h
  · split at h
    · simp at h
    · split at h <;> simp_all

/-- A path leads to a location that it passes through. -/
theorem locate_eq_ok (h : fs.locate p = .ok location) : location ∈ passages p := by
  simp only [locate, bind_eq_ok] at h
  obtain ⟨pieces, ha, hw⟩ := h
  rw [passages, ← admitted_eq_ok ha]
  exact walk_eq_ok hw

/-- A path that ends in a name leads to the entry of that name, and on past a directory. -/
theorem locate_of_name {named : List (List Char)} {last : List Char} {n : Nat}
    (ha : admitted p = .ok ((last :: named).reverse ++ List.replicate n []))
    (hw : fs.walk [] named.reverse = .ok place)
    (hi : ¬(Path.isIdle last || last = ['.', '.']) = true)
    (hn : fs.nameIn place last = .ok location)
    (hd : n = 0 ∨ fs.get? location = some .directory) : fs.locate p = .ok location := by
  rw [locate, bind_eq_ok]
  refine ⟨_, ha, ?_⟩
  simp only [walk] at hw
  rw [List.reverse_cons, walk, List.foldlM_append, List.foldlM_append, hw]
  show (fs.walk place [last] >>= fun l => fs.walk l (List.replicate n [])) = .ok location
  rw [bind_eq_ok]
  refine ⟨location, ?_, ?_⟩
  · rw [walk, List.foldlM_cons, step_name hi, hn]
    rfl
  · rcases hd with rfl | hd
    · rfl
    · exact walk_replicate hd n

/-! ## Where paths make entries -/

/-- The last name of a path stands in a directory. The path leads to where the name stands, as long
as no directory goes away; past a slash only if a directory is there. -/
theorem aim_eq_ok {unnamed : FileFault} {slashed : Bool}
    (h : fs.aim p unnamed = .ok (location, slashed)) :
    fs.get? location.tail = some .directory ∧
      ∀ later, DirectoriesStay fs later →
        (slashed = false ∨ later.get? location = some .directory) →
        later.locate p = .ok location := by
  rw [aim, bind_eq_ok] at h
  obtain ⟨⟨named, slashes⟩, ht, h⟩ := h
  obtain ⟨n, ha, hn⟩ := target_eq_ok ht
  cases named with
  | nil => simp at h
  | cons last earlier =>
      simp only [bind_eq_ok] at h
      obtain ⟨around, hw, h⟩ := h
      split at h
      · simp [bind_eq_ok] at h
      · next hi =>
        simp only [bind_eq_ok, pure, Except.pure, Except.ok.injEq, Prod.mk.injEq] at h
        obtain ⟨found, hname, rfl, rfl⟩ := h
        obtain ⟨hd, hs, rfl⟩ := nameIn_eq_ok_iff.1 hname
        refine ⟨hd, fun later hl hor => ?_⟩
        have hlater := nameIn_eq_ok_iff.2 ⟨hl hd, hs, rfl⟩
        refine locate_of_name ha (walk_of_stay hl hw) hi hlater (hor.imp_left fun h0 => ?_)
        simpa [hn] using h0

/-- A new entry gets a name in a directory, and nothing was there. Once it is a directory the path
leads to it. -/
theorem vacancy_eq_ok (h : fs.vacancy p = .ok location) :
    fs.get? location.tail = some .directory ∧ fs.get? location = none ∧
      ∀ later, DirectoriesStay fs later → later.get? location = some .directory →
        later.locate p = .ok location := by
  rw [vacancy, bind_eq_ok] at h
  obtain ⟨⟨found, slashed⟩, ha, h⟩ := h
  obtain ⟨hd, hl⟩ := aim_eq_ok ha
  dsimp only at h
  split at h
  · simp at h
  · next hv =>
    rw [Except.ok.injEq] at h
    subst h
    exact ⟨hd, by simpa using hv, fun later hs hm => hl later hs (.inr hm)⟩

/-- A file moves into a directory and onto no directory, to where its path leads. -/
theorem destination_eq_ok (h : fs.destination p = .ok location) :
    fs.get? location.tail = some .directory ∧ fs.get? location ≠ some .directory ∧
      fs.locate p = .ok location := by
  rw [destination, bind_eq_ok] at h
  obtain ⟨⟨found, slashed⟩, ha, h⟩ := h
  obtain ⟨hd, hl⟩ := aim_eq_ok ha
  dsimp only at h
  split at h
  · simp at h
  · next hslash =>
    split at h
    · simp at h
    · next hv =>
      rw [Except.ok.injEq] at h
      subst h
      exact ⟨hd, hv, hl fs (.refl fs) (.inl (by simpa using hslash))⟩

/-- What a path names as a file is a file where the path leads. -/
theorem file?_eq_some_iff {contents : ByteArray} :
    fs.file? p = some (location, contents) ↔
      fs.locate p = .ok location ∧ fs.get? location = some (.file contents) := by
  unfold file?
  split
  · next hl => simp [hl]
  · next found hl =>
    split
    · next old ho =>
      simp only [hl, Option.some.injEq, Prod.mk.injEq, Except.ok.injEq]
      constructor
      · rintro ⟨rfl, rfl⟩
        exact ⟨rfl, ho⟩
      · rintro ⟨rfl, hg⟩
        rw [ho, Option.some.injEq, Entry.file.injEq] at hg
        exact ⟨rfl, hg⟩
    · next hn =>
      simp only [hl, reduceCtorEq, Except.ok.injEq, false_iff]
      rintro ⟨rfl, hg⟩
      exact hn _ hg

end FileSystem

end MockForge

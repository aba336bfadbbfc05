import MockForge.Proofs.Writer.Temporary

/-!
# Moving into place

A move that is undone leaves no trace but that its staged file is gone, also when the moves after
it went to the same place: they are undone first. `Undone` says what a failed placing leaves and
`Placed` what one that succeeds does; both are put together from the last move to the first.
-/

namespace MockForge.Writer

open FileSystem (DirectoriesStay)

variable {host : Host} {paths : List Path} {target : Path} {staged location : Location}
  {backup : Option Location} {start middle moved last now : FileSystem}

/-! ## Backups -/

/-- There is a copy of the file that a target names, or there is neither a file nor a copy. -/
def BackedUp (paths : List Path) (target : Path) (start now : FileSystem) :
    Option Location → Prop
  | none => now = start ∧ start.file? target = none
  | some backup => ∃ location contents,
      start.file? target = some (location, contents) ∧ Adds paths start now backup contents

theorem backUp_ensures (host : Host) (paths : List Path) (target : Path) (start : FileSystem) :
    (backUp host paths target).Ensures start fun
      | .error _, now => ∀ b, now.get? b = start.get? b
      | .ok backup, now => BackedUp paths target start now backup := by
  refine Task.ensures_bind (Task.ensures_look ?_)
  split
  · next hn => exact ⟨rfl, hn⟩
  · next location contents hf =>
    have hmake := makeTemporary_ensures host paths target contents (fun _ => target) start
    refine Task.ensures_bind (hmake.weaken ?_)
    rintro (fault | backup) now ha
    · exact ha
    · exact ⟨location, contents, hf, ha⟩

/-- A backup is a new file. -/
theorem BackedUp.new (h : BackedUp paths target start now backup) {b : Location}
    (hb : backup = some b) :
    start.get? b = none ∧ IsTemporary paths b ∧ ∃ contents, now.get? b = some (.file contents) := by
  subst hb
  obtain ⟨location, contents, -, ha⟩ := h
  exact ⟨ha.vacant, ha.temporary, contents, by rw [ha.get?_eq, if_pos rfl]⟩

/-- A backup changes nothing else. -/
theorem BackedUp.other (h : BackedUp paths target start now backup) {b : Location}
    (hb : backup ≠ some b) : now.get? b = start.get? b := by
  cases backup with
  | none => rw [h.1]
  | some copy =>
      obtain ⟨location, contents, -, ha⟩ := h
      rw [ha.get?_eq, if_neg fun hc => hb (by rw [hc])]

/-- With the destination of its target known, a backup tells what was there. -/
theorem BackedUp.former (h : BackedUp paths target start now backup)
    (hs : DirectoriesStay start now) (hd : now.destination target = .ok location)
    (hl : backup ≠ some location) :
    (backup = none → start.get? location = none) ∧
      ∀ copy, backup = some copy → ∃ contents, start.get? location = some (.file contents) ∧
        now.get? copy = some (.file contents) := by
  obtain ⟨-, hnd, hloc⟩ := FileSystem.destination_eq_ok hd
  rw [h.other hl] at hnd
  cases backup with
  | none =>
      obtain ⟨rfl, hf⟩ := h
      refine ⟨fun _ => ?_, by simp⟩
      match hg : now.get? location with
      | none => rfl
      | some .directory => exact absurd hg hnd
      | some (.file contents) =>
          rw [FileSystem.file?_eq_some_iff.2 ⟨hloc, hg⟩] at hf
          simp at hf
  | some copy =>
      obtain ⟨found, contents, hf, ha⟩ := h
      obtain ⟨hfl, hfg⟩ := FileSystem.file?_eq_some_iff.1 hf
      have hsame : found = location := by
        have := FileSystem.locate_of_stay hs hfl
        rw [hloc, Except.ok.injEq] at this
        exact this.symm
      refine ⟨by simp, fun other ho => ?_⟩
      rw [Option.some.injEq] at ho
      exact ⟨contents, hsame ▸ hfg, by rw [← ho, ha.get?_eq, if_pos rfl]⟩

/-! ## Moves -/

theorem move_ensures (host : Host) (staged : Location) (target : Path) (start : FileSystem) :
    (move host staged target).Ensures start fun
      | .error _, now => now = start
      | .ok location, now =>
          start.destination target = .ok location ∧ now = start.rename staged location := by
  refine Task.ensures_bind (Task.ensures_look ?_)
  split
  · exact rfl
  · next location hd =>
    exact Task.ensures_bind (Task.ensures_attempt (fun _ => rfl) ⟨hd, rfl⟩)

/-- A staged file has moved to a location, and what was there is in the backup. -/
structure Moved (paths : List Path) (start moved : FileSystem) (staged location : Location)
    (backup : Option Location) : Prop where
  /-- No temporary file lies where a target leads. -/
  apart : ¬IsTemporary paths location
  around : start.get? location.tail = some .directory
  placed : ∃ contents, moved.get? location = some (.file contents)
  gone : moved.get? staged = none
  absent : backup = none → start.get? location = none
  former : ∀ copy, backup = some copy → start.get? copy = none ∧ IsTemporary paths copy ∧
    ∃ contents, start.get? location = some (.file contents) ∧
      moved.get? copy = some (.file contents)
  other : ∀ b, b ≠ location → b ≠ staged → backup ≠ some b → moved.get? b = start.get? b

/-- A temporary file lies elsewhere than where a target leads. -/
theorem Moved.ne_of_isTemporary (h : Moved paths start moved staged location backup)
    {b : Location} (hb : IsTemporary paths b) : b ≠ location :=
  fun he => h.apart (he ▸ hb)

theorem Moved.of_rename (hb : BackedUp paths target start middle backup)
    (hs : DirectoriesStay start middle) (ht : target ∈ paths) (htemp : IsTemporary paths staged)
    (hf : ∃ contents, start.get? staged = some (.file contents))
    (hd : middle.destination target = .ok location) :
    Moved paths start (middle.rename staged location) staged location backup := by
  obtain ⟨contents, hf⟩ := hf
  obtain ⟨haround, hnd, hloc⟩ := FileSystem.destination_eq_ok hd
  have hapart : ¬IsTemporary paths location := fun htemp =>
    htemp target ht (FileSystem.locate_eq_ok hloc)
  have hsl : staged ≠ location := fun he => hapart (he ▸ htemp)
  have hbl : backup ≠ some location := fun he => hapart (hb.new he).2.1
  have hbs : backup ≠ some staged := fun he => FileSystem.ne_of_vacant (hb.new he).1 hf rfl
  have hstaged : middle.get? staged = some (.file contents) := by rw [hb.other hbs, hf]
  have hget := FileSystem.get?_rename hstaged haround hnd
  obtain ⟨habsent, hformer⟩ := hb.former hs hd hbl
  refine ⟨hapart, ?_, ⟨contents, by rw [hget, if_pos rfl]⟩, ?_, habsent, ?_, ?_⟩
  · have htail : backup ≠ some location.tail := by
      intro he
      obtain ⟨-, -, old, hold⟩ := hb.new he
      rw [hold] at haround
      simp at haround
    rw [← hb.other htail, haround]
  · rw [hget, if_neg hsl, if_pos rfl]
  · intro copy hc
    obtain ⟨hvacant, htc, -⟩ := hb.new hc
    obtain ⟨old, hold, hcopy⟩ := hformer copy hc
    have hcl : copy ≠ location := fun he => hbl (he ▸ hc)
    have hcs : copy ≠ staged := fun he => hbs (he ▸ hc)
    exact ⟨hvacant, htc, old, hold, by rw [hget, if_neg hcl, if_neg hcs, hcopy]⟩
  · intro b h1 h2 h3
    rw [hget, if_neg h1, if_neg h2, hb.other h3]

/-- A staged file that moves is then found where it moved. -/
theorem BackedUp.get?_rename (hb : BackedUp paths target start middle backup)
    (hf : ∃ contents, start.get? staged = some (.file contents))
    (hd : middle.destination target = .ok location) :
    (middle.rename staged location).get? location = start.get? staged := by
  obtain ⟨contents, hf⟩ := hf
  obtain ⟨haround, hnd, -⟩ := FileSystem.destination_eq_ok hd
  have hbs : backup ≠ some staged := fun he => FileSystem.ne_of_vacant (hb.new he).1 hf rfl
  have hstaged : middle.get? staged = some (.file contents) := by rw [hb.other hbs, hf]
  rw [FileSystem.get?_rename hstaged haround hnd, if_pos rfl, hf]

/-- Files that wait to be moved: temporary files, different from each other. -/
structure Waiting (paths : List Path) (fs : FileSystem) (locations : List Location) : Prop where
  nodup : locations.Nodup
  temporary : ∀ b ∈ locations, IsTemporary paths b
  file : ∀ b ∈ locations, ∃ contents, fs.get? b = some (.file contents)

section Waiting

variable {rest : List Location}

/-- A move leaves alone the files that still wait. -/
theorem Waiting.get?_moved (h : Waiting paths start (staged :: rest))
    (hm : Moved paths start moved staged location backup) {b : Location} (hb : b ∈ rest) :
    moved.get? b = start.get? b := by
  have hmem : b ∈ staged :: rest := List.mem_cons_of_mem _ hb
  have hne : b ≠ staged := fun he => (List.nodup_cons.1 h.nodup).1 (he ▸ hb)
  obtain ⟨contents, hf⟩ := h.file b hmem
  refine hm.other b (hm.ne_of_isTemporary (h.temporary b hmem)) hne fun hc => ?_
  exact FileSystem.ne_of_vacant (hm.former b hc).1 hf rfl

theorem Waiting.tail (h : Waiting paths start (staged :: rest)) : Waiting paths start rest where
  nodup := (List.nodup_cons.1 h.nodup).2
  temporary b hb := h.temporary b (List.mem_cons_of_mem _ hb)
  file b hb := h.file b (List.mem_cons_of_mem _ hb)

theorem Waiting.of_moved (h : Waiting paths start (staged :: rest))
    (hm : Moved paths start moved staged location backup) : Waiting paths moved rest where
  nodup := h.tail.nodup
  temporary := h.tail.temporary
  file b hb := by
    rw [h.get?_moved hm hb]
    exact h.tail.file b hb

/-- The location to which a file moves is none where files wait. -/
theorem Waiting.notMem_location (h : Waiting paths start rest)
    (hm : Moved paths start moved staged location backup) : location ∉ rest :=
  fun hl => hm.apart (h.temporary location hl)

/-- A backup lies where no file waits. -/
theorem Waiting.notMem_backup (h : Waiting paths start rest)
    (hm : Moved paths start moved staged location backup) {copy : Location}
    (hc : backup = some copy) : copy ∉ rest := by
  intro hr
  obtain ⟨contents, hg⟩ := h.file copy hr
  exact FileSystem.ne_of_vacant (hm.former copy hc).1 hg rfl

end Waiting

/-! ## Undoing -/

/-- Undoing a move brings back what was at the location, and the backup is used up. -/
theorem undo_ensures (hl : ∃ contents, last.get? location = some (.file contents))
    (ha : last.get? location.tail = some .directory)
    (hn : backup = none → start.get? location = none)
    (hs : ∀ copy, backup = some copy → ∃ contents,
      start.get? location = some (.file contents) ∧ last.get? copy = some (.file contents)) :
    (undo location backup).Ensures last fun _ now =>
      ∀ b, now.get? b =
        if b = location then start.get? location
        else if backup = some b then none else last.get? b := by
  obtain ⟨contents, hl⟩ := hl
  cases backup with
  | none =>
      refine Task.ensures_perform fun b => ?_
      rw [FileSystem.perform, FileSystem.get?_remove hl, hn rfl]
      simp
  | some copy =>
      obtain ⟨old, hold, hcopy⟩ := hs copy rfl
      refine Task.ensures_perform fun b => ?_
      rw [FileSystem.perform, FileSystem.get?_rename hcopy ha (by simp [hl]), hold]
      simp only [Option.some.injEq, eq_comm]

/-- A failed placing leaves some temporary files, and apart from these everything as it was but for
the staged files, which are gone. -/
structure Undone (start now : FileSystem) (staged left : List Location) : Prop where
  restored : ∀ b ∉ left, now.get? b = if b ∈ staged then none else start.get? b
  temporary : ∀ b ∈ left,
    (b ∈ staged ∨ start.get? b = none) ∧ ∃ contents, now.get? b = some (.file contents)

/-- Nothing has to be undone when not even a backup was made. -/
theorem Undone.of_get?_eq {files : List Location} (h : Waiting paths start files)
    (he : ∀ b, now.get? b = start.get? b) : Undone start now files files where
  restored b hb := by rw [he, if_neg hb]
  temporary b hb := ⟨.inl hb, by rw [he]; exact h.file b hb⟩

section Rest

variable {rest left : List Location}

/-- Nothing has to be undone when the first move fails; a backup is left then. -/
theorem Undone.of_backedUp (h : Waiting paths start (staged :: rest))
    (hb : BackedUp paths target start now backup) :
    Undone start now (staged :: rest) (staged :: backup.toList ++ rest) where
  restored b hl := by
    simp only [List.cons_append, List.mem_cons, List.mem_append, Option.mem_toList,
      not_or] at hl
    rw [hb.other hl.2.1, if_neg (by simp [hl])]
  temporary b hl := by
    by_cases hc : backup = some b
    · obtain ⟨hv, -, hg⟩ := hb.new hc
      exact ⟨.inr hv, hg⟩
    · have hm : b ∈ staged :: rest := by simpa [hc] using hl
      exact ⟨.inl hm, by rw [hb.other hc]; exact h.file b hm⟩

/-- The moves after a move leave alone what is at its location when they are undone. -/
theorem Undone.notMem_location (hu : Undone moved last rest left) (h : Waiting paths start rest)
    (hm : Moved paths start moved staged location backup) : location ∉ left := by
  intro hl
  obtain ⟨contents, hplaced⟩ := hm.placed
  rcases (hu.temporary location hl).1 with hr | hg
  · exact h.notMem_location hm hr
  · exact FileSystem.ne_of_vacant hg hplaced rfl

/-- They leave its backup alone, too. -/
theorem Undone.notMem_backup (hu : Undone moved last rest left) (h : Waiting paths start rest)
    (hm : Moved paths start moved staged location backup) {copy : Location}
    (hc : backup = some copy) : copy ∉ left := by
  intro hl
  obtain ⟨-, -, contents, -, hcopy⟩ := hm.former copy hc
  rcases (hu.temporary copy hl).1 with hr | hg
  · exact h.notMem_backup hm hc hr
  · exact FileSystem.ne_of_vacant hg hcopy rfl

/-- Once the moves after a move are undone, undoing it as well brings back what was at its
location. -/
theorem Undone.get?_undo (hu : Undone moved last rest left) (h : Waiting paths start rest)
    (hm : Moved paths start moved staged location backup) (hs : DirectoriesStay start last) :
    (Writer.undo location backup).Ensures last fun _ now =>
      ∀ b, now.get? b =
        if b = location then start.get? location
        else if backup = some b then none else last.get? b := by
  have hplaced : ∃ contents, last.get? location = some (.file contents) := by
    rw [hu.restored _ (hu.notMem_location h hm), if_neg (h.notMem_location hm)]
    exact hm.placed
  have hformer : ∀ copy, backup = some copy → ∃ contents,
      start.get? location = some (.file contents) ∧ last.get? copy = some (.file contents) := by
    intro copy hc
    rw [hu.restored _ (hu.notMem_backup h hm hc), if_neg (h.notMem_backup hm hc)]
    exact (hm.former copy hc).2.2
  exact undo_ensures hplaced (hs hm.around) hm.absent hformer

/-- When a later placing is undone and then the move before it, both are undone. -/
theorem Undone.undo (hu : Undone moved last rest left) (h : Waiting paths start (staged :: rest))
    (hm : Moved paths start moved staged location backup) (hs : DirectoriesStay start last) :
    (Writer.undo location backup).Ensures last fun _ now =>
      Undone start now (staged :: rest) left := by
  have htemp : IsTemporary paths staged := h.temporary staged List.mem_cons_self
  refine (hu.get?_undo h.tail hm hs).weaken fun _ now hnow => ⟨fun b hb => ?_, fun b hb => ?_⟩
  · rw [hnow]
    by_cases hbl : b = location
    · rw [if_pos hbl, hbl, if_neg]
      rw [List.mem_cons, not_or]
      exact ⟨(hm.ne_of_isTemporary htemp).symm, h.tail.notMem_location hm⟩
    · rw [if_neg hbl]
      by_cases hbc : backup = some b
      · rw [if_pos hbc, (hm.former b hbc).1]
        split <;> rfl
      · rw [if_neg hbc, hu.restored b hb]
        by_cases hbr : b ∈ rest
        · simp [hbr]
        · by_cases hbs : b = staged
          · simp [hbs, hm.gone]
          · simp [hbr, hbs, hm.other b hbl hbs hbc]
  · obtain ⟨hor, contents, hg⟩ := hu.temporary b hb
    have hbl : b ≠ location := fun he => hu.notMem_location h.tail hm (he ▸ hb)
    have hbc : backup ≠ some b := fun he => hu.notMem_backup h.tail hm he hb
    refine ⟨?_, contents, by rw [hnow, if_neg hbl, if_neg hbc, hg]⟩
    rcases hor with hr | hv
    · exact .inl (List.mem_cons_of_mem _ hr)
    · by_cases hbs : b = staged
      · exact .inl (by simp [hbs])
      · exact .inr (by rw [← hm.other b hbl hbs hbc, hv])

end Rest

/-! ## Placing -/

/-- Each target holds what its last staged file held. The staged files are gone, and nothing else
has changed but that there are backups, which are temporary files. -/
structure Placed (paths : List Path) (start now : FileSystem) (pairs : List (Location × Path))
    (backups : List Location) : Prop where
  located : ∀ q ∈ pairs, ∃ b, now.locate q.2 = .ok b
  last : ∀ before q after b, pairs = before ++ q :: after → now.locate q.2 = .ok b →
    (∀ r ∈ after, now.locate r.2 ≠ .ok b) → now.get? b = start.get? q.1
  backup : ∀ b ∈ backups, IsTemporary paths b ∧
    (b ∈ pairs.map (·.1) ∨ start.get? b = none) ∧ ∃ contents, now.get? b = some (.file contents)
  other : ∀ b ∉ backups, (∀ q ∈ pairs, now.locate q.2 ≠ .ok b) →
    now.get? b = if b ∈ pairs.map (·.1) then none else start.get? b

theorem Placed.nil (paths : List Path) (start : FileSystem) : Placed paths start start [] [] where
  located := by simp
  last := by simp
  backup := by simp
  other := by simp

section Cons

variable {rest : List (Location × Path)} {backups : List Location}

theorem Placed.backup_cons (h : Placed paths moved now rest backups)
    (hm : Moved paths start moved staged location backup)
    (hw : Waiting paths start (staged :: rest.map (·.1))) (hp : ∀ q ∈ rest, q.2 ∈ paths)
    {b : Location} (hb : b ∈ backup.toList ++ backups) :
    IsTemporary paths b ∧ (b ∈ staged :: rest.map (·.1) ∨ start.get? b = none) ∧
      ∃ contents, now.get? b = some (.file contents) := by
  rcases List.mem_append.1 hb with hb | hb
  · have hc := Option.mem_toList.1 hb
    obtain ⟨hv, ht, contents, -, hcopy⟩ := hm.former b hc
    refine ⟨ht, .inr hv, ?_⟩
    by_cases hlater : b ∈ backups
    · exact (h.backup b hlater).2.2
    · rw [h.other b hlater fun q hq => ht.locate_ne (hp q hq),
        if_neg (hw.tail.notMem_backup hm hc)]
      exact ⟨contents, hcopy⟩
  · obtain ⟨ht, hor, hfile⟩ := h.backup b hb
    refine ⟨ht, ?_, hfile⟩
    rcases hor with hr | hv
    · exact .inl (List.mem_cons_of_mem _ hr)
    · by_cases hs : b = staged
      · exact .inl (hs ▸ List.mem_cons_self)
      · refine .inr ?_
        rw [← hm.other b (hm.ne_of_isTemporary ht) hs, hv]
        intro hc
        obtain ⟨-, -, contents, -, hcopy⟩ := hm.former b hc
        exact FileSystem.ne_of_vacant hv hcopy rfl

/-- A move in front of a placing makes one placing of both. -/
theorem Placed.cons (h : Placed paths moved now rest backups)
    (hm : Moved paths start moved staged location backup)
    (hput : moved.get? location = start.get? staged) (hl : now.locate target = .ok location)
    (hw : Waiting paths start (staged :: rest.map (·.1))) (hp : ∀ q ∈ rest, q.2 ∈ paths) :
    Placed paths start now ((staged, target) :: rest) (backup.toList ++ backups) where
  located := List.forall_mem_cons.2 ⟨⟨location, hl⟩, h.located⟩
  last := by
    intro before q after b hsplit hq hafter
    cases before with
    | nil =>
        -- The file moved first is the last for its place only where no later one goes there.
        obtain ⟨rfl, rfl⟩ := List.cons.inj hsplit
        obtain rfl : location = b := Except.ok.inj (hl.symm.trans hq)
        have hb : location ∉ backups := fun hb => hm.apart (h.backup location hb).1
        rw [h.other location hb hafter, if_neg (hw.tail.notMem_location hm), hput]
    | cons first before =>
        obtain ⟨-, rfl⟩ := List.cons.inj hsplit
        rw [h.last before q after b rfl hq hafter]
        exact hw.get?_moved hm (List.mem_map_of_mem (by simp))
  backup b hb := h.backup_cons hm hw hp hb
  other := by
    intro b hb hq
    rw [List.mem_append, not_or] at hb
    obtain ⟨hhead, hrest⟩ := List.forall_mem_cons.1 hq
    have hbl : b ≠ location := by
      rintro rfl
      exact hhead hl
    rw [h.other b hb.2 hrest, List.map_cons]
    by_cases hr : b ∈ rest.map (·.1)
    · rw [if_pos hr, if_pos (List.mem_cons_of_mem _ hr)]
    · by_cases hs : b = staged
      · rw [if_neg hr, if_pos (hs ▸ List.mem_cons_self), hs, hm.gone]
      · have hnot : b ∉ staged :: rest.map (·.1) := by simp [hs, hr]
        rw [if_neg hr, if_neg hnot, hm.other b hbl hs fun hc => hb.1 (Option.mem_toList.2 hc)]

end Cons

/-- Whatever stops a placing, it is undone. -/
theorem placeAll_ensures {pairs : List (Location × Path)} (host : Host)
    (hp : ∀ q ∈ pairs, q.2 ∈ paths) (hw : Waiting paths start (pairs.map (·.1))) :
    (placeAll host paths pairs).Ensures start fun
      | .error (_, left), now => Undone start now (pairs.map (·.1)) left
      | .ok backups, now => Placed paths start now pairs backups := by
  -- A failure comes back through the moves before it, and each of these is undone on the way.
  induction pairs generalizing start with
  | nil => exact Placed.nil paths start
  | cons pair rest ih =>
      obtain ⟨staged, target⟩ := pair
      rw [List.map_cons] at hw ⊢
      obtain ⟨hptarget, hprest⟩ := List.forall_mem_cons.1 hp
      have hback := (backUp_ensures host paths target start).with_stay
      unfold placeAll
      refine Task.ensures_bind (hback.weaken ?_)
      rintro (fault | backup) middle ⟨hb, hs⟩
      · exact Undone.of_get?_eq hw hb
      · refine Task.ensures_bind ((move_ensures host staged target middle).with_stay.weaken ?_)
        rintro (fault | location) moved ⟨hmove, hsm⟩
        · subst hmove
          exact Undone.of_backedUp hw hb
        · obtain ⟨hdest, rfl⟩ := hmove
          have hfile := hw.file staged List.mem_cons_self
          have hm := Moved.of_rename hb hs hptarget (hw.temporary staged List.mem_cons_self) hfile
            hdest
          refine Task.ensures_bind ((ih hprest (hw.of_moved hm)).with_stay.weaken ?_)
          rintro (⟨fault, left⟩ | backups) last ⟨hend, hsl⟩
          · exact Task.ensures_bind (hend.undo hw hm (hs.trans (hsm.trans hsl)))
          · have hl := FileSystem.locate_of_stay (hsm.trans hsl)
              (FileSystem.destination_eq_ok hdest).2.2
            exact hend.cons hm (hb.get?_rename hfile hdest) hl hw hprest

end MockForge.Writer

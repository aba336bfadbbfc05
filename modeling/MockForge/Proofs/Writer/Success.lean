import Mathlib.Data.List.Pairwise
import MockForge.Proofs.FileSystem.Making
import MockForge.Proofs.Writer.Duplicates

/-!
# When a write succeeds

With nothing refused, a write succeeds or fails by what is there before it: no file is around a
place where a file goes, no directory is at such a place, and no such place is around another one.
The order of the files does not matter. Main statement: `succeeds_iff`.
-/

namespace MockForge.Writer

open FileSystem (Clear CanPass leadsTo)

variable {host : Host} {paths : List Path} {target : Path} {start now later : FileSystem}
  {temporaries : List Location}

/-! ## Staging -/

theorem ensures_attempt_never {operation : FileSystem.Operation}
    {post : Except FileFault Unit → FileSystem → Prop} (hr : host.refusal = .never)
    (h : post (.ok ()) (start.perform operation)) :
    (Task.attempt host.refusal operation).Ensures start post := by
  rw [hr]
  exact h

theorem makeTemporary_ensures_ok {place : Location} (hr : host.refusal = .never)
    (hd : start.directory (parent target) = .ok place) (paths : List Path) (contents : ByteArray)
    (blamed : String → Path) :
    (makeTemporary host paths target contents blamed).Ensures start fun result _ =>
      ∃ b, result = .ok b := by
  refine Task.ensures_bind (Task.ensures_look ?_)
  rw [hd]
  refine Task.ensures_bind (ensures_attempt_never hr ?_)
  refine Task.ensures_bind (ensures_attempt_never hr ?_)
  exact ⟨_, rfl⟩

/-- Where no file is around a target, a text can be staged for it, and the directory of the target
is there then. -/
theorem stage_ensures_ok (hr : host.refusal = .never) (hp : CanPass target) (hn : target.IsNamed)
    (hc : start.Clear (leadsTo target).tail) (paths : List Path) (text : String) :
    (stage host paths target text).Ensures start fun result now =>
      (∃ b, result = .ok b) ∧ now.get? (leadsTo target).tail = some .directory := by
  have hmade := FileSystem.makeDirectories_ensures_made (FileSystem.ladder_surroundings hp hn) hc
  unfold stage
  rw [hr]
  refine Task.ensures_bind (hmade.weaken ?_)
  rintro result middle ⟨rfl, hd, -⟩
  obtain ⟨place, hplace⟩ := FileSystem.directory_parent (FileSystem.locate_of_around hp hn hd)
  have hmake := makeTemporary_ensures_ok hr hplace paths text.toUTF8 ((parent target).join ⟨·⟩)
  refine Task.ensures_bind (hmake.with_stay.weaken ?_)
  rintro result now ⟨⟨b, rfl⟩, hs⟩
  exact ⟨⟨b, rfl⟩, hs hd⟩

/-- Staging puts no file around a target: what it makes are directories, and files where no target
passes through. -/
theorem Staged.clear (h : Staged paths start now temporaries)
    (ht : ∀ b ∈ temporaries, IsTemporary paths b) (htarget : target ∈ paths) (hp : CanPass target)
    (hc : start.Clear (leadsTo target).tail) : now.Clear (leadsTo target).tail := by
  intro b hb contents hg
  by_cases hm : b ∈ temporaries
  · exact ht b hm target htarget (hp.mem_passages (hb.trans (List.tail_suffix _)))
  · cases hs : start.get? b with
    | some entry =>
        rw [h.kept b entry hs] at hg
        exact hc b hb contents (hg ▸ hs)
    | none =>
        rcases h.new b hm hs with hn | ⟨hd, -⟩
        · rw [hn] at hg
          cases hg
        · rw [hd] at hg
          cases hg

theorem stageAll_ensures_ok {pairs : List (Path × String)} (hr : host.refusal = .never)
    (hp : ∀ q ∈ pairs, q.1 ∈ paths ∧ CanPass q.1 ∧ q.1.IsNamed)
    (hc : ∀ q ∈ pairs, start.Clear (leadsTo q.1).tail)
    (h : Staged paths start now temporaries) (ht : ∀ b ∈ temporaries, IsTemporary paths b) :
    (stageAll host paths pairs).Ensures now fun result later =>
      (∃ locations, result = .ok locations) ∧
        ∀ q ∈ pairs, later.get? (leadsTo q.1).tail = some .directory := by
  induction pairs generalizing now temporaries with
  | nil => exact ⟨⟨[], rfl⟩, by simp⟩
  | cons pair rest ih =>
      obtain ⟨target, text⟩ := pair
      obtain ⟨⟨htarget, hpass, hn⟩, hprest⟩ := List.forall_mem_cons.1 hp
      obtain ⟨hclear, hcrest⟩ := List.forall_mem_cons.1 hc
      have hstage := stage_ensures_ok hr hpass hn (h.clear ht htarget hpass hclear) paths text
      unfold stageAll
      refine Task.ensures_bind ((hstage.and (stage_ensures host htarget text h)).weaken ?_)
      rintro result middle ⟨⟨⟨location, rfl⟩, hd⟩, hst, htemp, -⟩
      have hrest := ih hprest hcrest hst (List.forall_mem_cons.2 ⟨htemp, ht⟩)
      refine Task.ensures_bind (hrest.with_stay.weaken ?_)
      rintro result later ⟨⟨⟨locations, rfl⟩, hall⟩, hs⟩
      exact ⟨⟨_, rfl⟩, List.forall_mem_cons.2 ⟨hs hd, hall⟩⟩

/-! ## Moving into place -/

theorem backUp_ensures_ok {place : Location} (hr : host.refusal = .never)
    (hd : start.directory (parent target) = .ok place) (paths : List Path) :
    (backUp host paths target).Ensures start fun result _ => ∃ backup, result = .ok backup := by
  refine Task.ensures_bind (Task.ensures_look ?_)
  split
  · exact ⟨none, rfl⟩
  · refine Task.ensures_bind ((makeTemporary_ensures_ok hr hd paths _ _).weaken ?_)
    rintro result now ⟨b, rfl⟩
    exact ⟨some b, rfl⟩

theorem move_ensures_ok {location : Location} (hr : host.refusal = .never)
    (hd : start.destination target = .ok location) (staged : Location) :
    (move host staged target).Ensures start fun result _ => result = .ok location := by
  refine Task.ensures_bind (Task.ensures_look ?_)
  rw [hd]
  exact Task.ensures_bind (ensures_attempt_never hr rfl)

section Moved

variable {backup : Option Location} {staged location b : Location}

/-- No directory is made for a backup. -/
theorem BackedUp.directory (h : BackedUp paths target start now backup)
    (hd : now.get? b = some .directory) : start.get? b = some .directory := by
  by_cases hb : backup = some b
  · obtain ⟨-, -, contents, hf⟩ := h.new hb
    rw [hf] at hd
    cases hd
  · rwa [h.other hb] at hd

/-- No directory is made by a move. -/
theorem Moved.directory (h : Moved paths start now staged location backup)
    (hd : now.get? b = some .directory) : start.get? b = some .directory := by
  have hl : b ≠ location := by
    rintro rfl
    obtain ⟨contents, hf⟩ := h.placed
    rw [hf] at hd
    cases hd
  have hs : b ≠ staged := by
    rintro rfl
    rw [h.gone] at hd
    cases hd
  have hb : backup ≠ some b := by
    intro hb
    obtain ⟨-, -, contents, -, hf⟩ := h.former b hb
    rw [hf] at hd
    cases hd
  rwa [h.other b hl hs hb] at hd

end Moved

/-- Staged files can be moved to targets that can take a file: no move puts a directory there. -/
theorem placeAll_ensures_ok {pairs : List (Location × Path)} (hr : host.refusal = .never)
    (hp : ∀ q ∈ pairs, q.2 ∈ paths) (hw : Waiting paths start (pairs.map (·.1)))
    (hd : ∀ q ∈ pairs, ∃ b, start.destination q.2 = .ok b) :
    (placeAll host paths pairs).Ensures start fun result _ => ∃ backups, result = .ok backups := by
  induction pairs generalizing start with
  | nil => exact ⟨[], rfl⟩
  | cons pair rest ih =>
      obtain ⟨staged, target⟩ := pair
      rw [List.map_cons] at hw
      obtain ⟨htarget, hprest⟩ := List.forall_mem_cons.1 hp
      obtain ⟨⟨location, hfirst⟩, hdrest⟩ := List.forall_mem_cons.1 hd
      obtain ⟨-, hvacant, hlocated⟩ := FileSystem.destination_eq_ok hfirst
      obtain ⟨place, hplace⟩ := FileSystem.directory_parent hlocated
      have hback := backUp_ensures_ok hr hplace paths
      unfold placeAll
      refine Task.ensures_bind
        ((hback.and (backUp_ensures host paths target start).with_stay).weaken ?_)
      rintro result middle ⟨⟨backup, rfl⟩, hb, hs⟩
      have hdest := FileSystem.destination_of_stay hs hfirst fun hd => hvacant (hb.directory hd)
      have hmove := move_ensures_ok hr hdest staged
      refine Task.ensures_bind
        ((hmove.and (move_ensures host staged target middle).with_stay).weaken ?_)
      rintro result moved ⟨rfl, ⟨-, rfl⟩, hsm⟩
      have hm := Moved.of_rename hb hs htarget (hw.temporary staged List.mem_cons_self)
        (hw.file staged List.mem_cons_self) hdest
      have hlater : ∀ q ∈ rest, ∃ b, (middle.rename staged location).destination q.2 = .ok b := by
        intro q hq
        obtain ⟨b, hb⟩ := hdrest q hq
        obtain ⟨-, hn, -⟩ := FileSystem.destination_eq_ok hb
        exact ⟨b, FileSystem.destination_of_stay (hs.trans hsm) hb fun hd => hn (hm.directory hd)⟩
      refine Task.ensures_bind ((ih hprest (hw.of_moved hm) hlater).weaken ?_)
      rintro result now ⟨backups, rfl⟩
      exact ⟨_, rfl⟩

/-! ## What is asked of a file system -/

section Writable

variable {base : Path} {files : List MockFile} {file : MockFile} {mock : Mock}

/-- Where a path below a base leads. -/
def placeOf (base : Path) (path : String) : Location := leadsTo (base.join ⟨path⟩)

/-- What stands after the last slash of a path. -/
def ending (path : String) : List Char := path.toList.rtakeWhile (· ≠ '/')

/-- Files can be written below a base. -/
structure Writable (base : Path) (files : List MockFile) (fs : FileSystem) : Prop where
  accepted : ∀ file ∈ files, ∃ target, resolve base file.path = .ok target
  /-- No path ends in a slash or in a single dot. -/
  named : ∀ file ∈ files, ending file.path ≠ [] ∧ ending file.path ≠ ['.']
  /-- No file is around the place of a file. -/
  clear : ∀ file ∈ files, ∀ b, b <:+ placeOf base file.path → b ≠ placeOf base file.path →
    ∀ contents, fs.get? b ≠ some (.file contents)
  /-- No directory is at the place of a file. -/
  vacant : ∀ file ∈ files, fs.get? (placeOf base file.path) ≠ some .directory
  /-- No place is around another one. -/
  apart : ∀ file ∈ files, ∀ other ∈ files, placeOf base file.path <:+ placeOf base other.path →
    placeOf base file.path = placeOf base other.path

theorem exists_pieces_ending (path : String) :
    ∃ before, Path.pieces path.toList = before ++ [ending path] := by
  obtain ⟨before, h⟩ := Path.exists_pieces_append path.toList
  refine ⟨before, ?_⟩
  have hpieces := h [] List.not_mem_nil
  rwa [List.append_nil, List.append_nil] at hpieces

theorem isIdle_eq_false_iff {piece : List Char} :
    Path.isIdle piece = false ↔ piece ≠ [] ∧ piece ≠ ['.'] := by
  simp [Path.isIdle]

/-- A path that goes down ends in a name when something stands after its last slash. -/
theorem isNamed_of_ending {path : String} (hd : (⟨path⟩ : Path).IsDownward)
    (he : ending path ≠ [] ∧ ending path ≠ ['.']) : (⟨path⟩ : Path).IsNamed := by
  obtain ⟨before, hpieces⟩ := exists_pieces_ending path
  have hup : ending path ≠ ['.', '.'] := fun hup => hd.noUp (by rw [hpieces]; simp [hup])
  exact ⟨before, ending path, String.ofList (ending path), hpieces,
    Path.ofPiece?_eq_name (by simp [isIdle_eq_false_iff.2 he]) hup⟩

/-! ## What a success tells -/

/-- After a write its places hold files. -/
theorem Written.get?_placeOf (h : Written base mock start now) (hf : file ∈ mock.files) :
    ∃ contents, now.locate (base.join ⟨file.path⟩) = .ok (placeOf base file.path) ∧
      now.get? (placeOf base file.path) = some (.file contents) := by
  have hpath : base.join ⟨file.path⟩ ∈ pathsBelow base mock := List.mem_map.2 ⟨file, hf, rfl⟩
  obtain ⟨b, hb⟩ := h.located _ hpath
  obtain ⟨last, hlast⟩ := exists_isLast hpath hb
  obtain rfl := FileSystem.locate_eq_leadsTo hb
  exact ⟨_, hb, h.last _ _ hlast⟩

/-- Around a place that holds a file there are directories. -/
theorem Written.directory_around (h : Written base mock start now) (hf : file ∈ mock.files)
    {b : Location} (hb : b <:+ placeOf base file.path) (hne : b ≠ placeOf base file.path) :
    now.get? b = some .directory := by
  obtain ⟨contents, -, hg⟩ := h.get?_placeOf hf
  exact FileSystem.get?_of_suffix hg hb hne

/-- Nothing but a directory can be looked up with a slash or a dot after its name. -/
theorem Written.ending_ne (h : Written base mock start now) (ha : Accepted base mock.files)
    (hf : file ∈ mock.files) : ending file.path ≠ [] ∧ ending file.path ≠ ['.'] := by
  rw [← isIdle_eq_false_iff, ← Bool.not_eq_true]
  intro hi
  obtain ⟨front, hjoin, -⟩ := Path.pieces_join (p := base) (ha.isDownward hf).plain
  obtain ⟨before, hpieces⟩ := exists_pieces_ending file.path
  obtain ⟨contents, hl, hg⟩ := h.get?_placeOf hf
  rw [hpieces, ← List.append_assoc] at hjoin
  rw [FileSystem.directory_of_isIdle hjoin hi hl] at hg
  cases hg

/-- No file was where a directory is now. -/
theorem Written.not_file_of_directory (h : Written base mock start now) {b : Location}
    (hd : now.get? b = some .directory) (contents : ByteArray) :
    start.get? b ≠ some (.file contents) := by
  have hother : ∀ path ∈ pathsBelow base mock, now.locate path ≠ .ok b := by
    intro path hp hl
    obtain ⟨file, hf, rfl⟩ := List.mem_map.1 hp
    obtain ⟨written, hloc, hfile⟩ := h.get?_placeOf hf
    rw [hloc, Except.ok.injEq] at hl
    rw [← hl, hfile] at hd
    cases hd
  intro hg
  rcases h.other b hother with hsame | ⟨hn, -⟩
  · rw [hsame, hg] at hd
    cases hd
  · rw [hn] at hg
    cases hg

/-- What can be written was writable. -/
theorem Written.writable (h : Written base mock start now)
    (hs : FileSystem.DirectoriesStay start now) (ha : Accepted base mock.files) :
    Writable base mock.files start where
  accepted := ha
  named file hf := h.ending_ne ha hf
  clear file hf b hb hne := h.not_file_of_directory (h.directory_around hf hb hne)
  vacant file hf hd := by
    obtain ⟨contents, -, hg⟩ := h.get?_placeOf hf
    rw [hs hd] at hg
    cases hg
  apart file hf other ho hsuffix := by
    by_contra hne
    obtain ⟨contents, -, hg⟩ := h.get?_placeOf hf
    rw [h.directory_around ho hsuffix hne] at hg
    cases hg

/-! ## What is enough for a success -/

theorem Writable.isDownward (h : Writable base files start) (hf : file ∈ files) :
    (⟨file.path⟩ : Path).IsDownward :=
  Accepted.isDownward h.accepted hf

theorem Writable.isNamed (h : Writable base files start) (hf : file ∈ files) :
    (base.join ⟨file.path⟩).IsNamed := by
  have hd := h.isDownward hf
  exact (isNamed_of_ending hd (h.named file hf)).join hd.plain

/-- No file is around the place of a file. -/
theorem Writable.clear_tail (h : Writable base files start) (hf : file ∈ files) :
    start.Clear (leadsTo (base.join ⟨file.path⟩)).tail := by
  intro b hb
  refine h.clear file hf b (hb.trans (List.tail_suffix _)) fun he => ?_
  rw [he] at hb
  exact FileSystem.not_leadsTo_suffix_tail (h.isNamed hf) hb

/-- Staging makes no directory at the place of a file: those that it makes are around one. -/
theorem Writable.vacant_of_staged (h : Writable base mock.files start)
    (hs : Staged (pathsBelow base mock) start now temporaries)
    (hup : ∀ file ∈ mock.files, CanPass (base.join ⟨file.path⟩)) (hf : file ∈ mock.files) :
    now.get? (placeOf base file.path) ≠ some .directory := by
  intro hd
  by_cases hm : placeOf base file.path ∈ temporaries
  · obtain ⟨-, contents, hg⟩ := hs.temporary _ hm
    rw [hg] at hd
    cases hd
  · cases hg : start.get? (placeOf base file.path) with
    | some entry =>
        rw [hs.kept _ entry hg, ← hg] at hd
        exact h.vacant file hf hd
    | none =>
        rcases hs.new _ hm hg with hn | ⟨-, target, ht, above, habove, hl⟩
        · rw [hn] at hd
          cases hd
        · obtain ⟨other, ho, rfl⟩ := List.mem_map.1 ht
          have hsuffix := FileSystem.leadsTo_suffix_of_mem_parents (hup other ho).passable.noUp
            (h.isNamed ho) habove
          rw [← FileSystem.locate_eq_leadsTo hl] at hsuffix
          have hsame := h.apart file hf other ho (hsuffix.trans (List.tail_suffix _))
          rw [hsame] at hsuffix
          exact FileSystem.not_leadsTo_suffix_tail (h.isNamed ho) hsuffix

/-- What is writable is written, as long as nothing is refused and no limit is hit. -/
theorem Writable.write_ok (h : Writable base mock.files start) (hr : host.refusal = .never)
    (hflawless : Flawless base mock.files)
    (hpass : ∀ file ∈ mock.files, CanPass (base.join ⟨file.path⟩)) :
    (write ⟨base, host⟩ mock).Ensures start fun result _ => ∃ paths, result = .ok paths := by
  have hpaths : ∀ path ∈ pathsBelow base mock, path ∈ pathsBelow base mock ∧ CanPass path ∧
      path.IsNamed := by
    intro path hp
    obtain ⟨file, hf, rfl⟩ := List.mem_map.1 hp
    exact ⟨hp, hpass file hf, h.isNamed hf⟩
  have hclear : ∀ q ∈ (pathsBelow base mock).zip (mock.files.map MockFile.content),
      start.Clear (leadsTo q.1).tail := by
    intro q hq
    obtain ⟨file, hf, he⟩ := List.mem_map.1 (List.of_mem_zip hq).1
    rw [← he]
    exact h.clear_tail hf
  have hstage := stageAll_ensures_ok hr (fun q hq => hpaths q.1 (List.of_mem_zip hq).1) hclear
    (Staged.refl _ start) (by simp)
  unfold write
  rw [hflawless.targets_eq]
  refine Task.ensures_bind ((hstage.and (stageAll_stages host base mock start)).weaken ?_)
  rintro result middle ⟨⟨⟨locations, rfl⟩, haround⟩, hall⟩
  have hready : ∀ q ∈ locations.zip (pathsBelow base mock),
      ∃ b, middle.destination q.2 = .ok b := by
    intro q hq
    obtain ⟨file, hf, he⟩ := List.mem_map.1 (List.of_mem_zip hq).2
    have hmem : (base.join ⟨file.path⟩, file.content) ∈
        (pathsBelow base mock).zip (mock.files.map MockFile.content) := by
      rw [pathsBelow, List.zip_map']
      exact List.mem_map_of_mem hf
    rw [← he]
    exact ⟨_, FileSystem.destination_of_isNamed (hpass file hf) (h.isNamed hf)
      (haround (base.join ⟨file.path⟩, file.content) hmem)
      (h.vacant_of_staged hall.staged hpass hf)⟩
  have hplace := placeAll_ensures_ok hr (fun q hq => (List.of_mem_zip hq).2) hall.waiting hready
  refine Task.ensures_bind (hplace.weaken ?_)
  rintro result now ⟨backups, rfl⟩
  refine Task.ensures_bind (Task.Ensures.of_forall fun _ _ => ?_)
  exact Task.ensures_bind ⟨_, rfl⟩

/-! ## The whole -/

/-- A path without NUL that is short enough, with names that are. -/
structure WithinLimits (p : Path) : Prop where
  noNul : '\x00' ∉ p.spelling.toList
  short : p.spelling.utf8ByteSize ≤ FileSystem.maxPathSize
  names : ∀ piece ∈ Path.pieces p.spelling.toList,
    (String.ofList piece).utf8ByteSize ≤ FileSystem.maxNameSize

theorem WithinLimits.canPass {p : Path} (h : WithinLimits p) (hne : p.spelling ≠ "")
    (hup : ['.', '.'] ∉ Path.pieces p.spelling.toList) : CanPass p where
  admitted := by
    rw [FileSystem.admitted, if_neg (by simpa using h.noNul), if_neg (by simpa using hne),
      if_neg (Nat.not_lt_of_le h.short)]
  passable := ⟨hup, h.names⟩

/-- Two paths that end in names and are the same once single dots and repeated slashes are
dropped. -/
def Respelled (p q : String) : Prop :=
  (⟨p⟩ : Path).IsNamed ∧ (⟨q⟩ : Path).IsNamed ∧ (⟨p⟩ : Path).steps = (⟨q⟩ : Path).steps

theorem Respelled.symm {p q : String} (h : Respelled p q) : Respelled q p :=
  ⟨h.2.1, h.1, h.2.2.symm⟩

/-- Files that can be written can be written in any order, and fewer of them as well. -/
theorem Writable.of_subset {fewer : List MockFile} (h : Writable base files start)
    (hs : fewer ⊆ files) : Writable base fewer start where
  accepted file hf := h.accepted file (hs hf)
  named file hf := h.named file (hs hf)
  clear file hf := h.clear file (hs hf)
  vacant file hf := h.vacant file (hs hf)
  apart file hf other ho := h.apart file (hs hf) other (hs ho)

/-- Files that can be written are told apart by their steps, if by nothing else. -/
theorem Writable.flawless (h : Writable base files start)
    (ha : files.Pairwise fun first second => ¬Respelled first.path second.path) :
    Flawless base files := by
  have haccepted : Accepted base files := h.accepted
  have hnamed {file : MockFile} (hf : file ∈ files) : (⟨file.path⟩ : Path).IsNamed :=
    isNamed_of_ending (h.isDownward hf) (h.named file hf)
  rw [haccepted.flawless_iff]
  exact ha.imp_of_mem fun hfirst hsecond hapart hc =>
    hapart ⟨hnamed hfirst, hnamed hsecond, hc.1.symm⟩

/-- Paths below a base that does not lead up can be looked up as far as there are directories. -/
theorem Writable.canPass (h : Writable base files start)
    (hbase : ['.', '.'] ∉ Path.pieces base.spelling.toList) (hf : file ∈ files)
    (hl : WithinLimits (base.join ⟨file.path⟩)) : CanPass (base.join ⟨file.path⟩) := by
  have hd := h.isDownward hf
  obtain ⟨front, hjoin, n, hfront⟩ := Path.pieces_join (p := base) hd.plain
  refine hl.canPass (fun he => ?_) ?_
  · obtain ⟨before, last, name, hpieces, hname⟩ := h.isNamed hf
    have hlast := congrArg List.getLast? hpieces
    rw [he, List.getLast?_concat] at hlast
    rw [← Option.some.inj hlast] at hname
    cases hname
  · rw [hjoin, List.mem_append, not_or]
    exact ⟨fun hm => hbase (by rw [hfront]; exact List.mem_append_left _ hm), hd.noUp⟩

theorem write_ok_iff (fs : FileSystem) (hr : host.refusal = .never)
    (hbase : ['.', '.'] ∉ Path.pieces base.spelling.toList)
    (hlimits : ∀ file ∈ mock.files, WithinLimits (base.join ⟨file.path⟩))
    (hapart : mock.files.Pairwise fun first second => ¬Respelled first.path second.path) :
    (∃ paths, (write ⟨base, host⟩ mock fs).value = .ok paths) ↔ Writable base mock.files fs := by
  constructor
  · rintro ⟨paths, hok⟩
    have hw := write_written ⟨base, host⟩ mock fs
    unfold Task.Ensures at hw
    rw [hok] at hw
    exact hw.2.writable ((write ⟨base, host⟩ mock).stay fs) (flawless_of_write_ok hok).accepted
  · intro h
    exact h.write_ok hr (h.flawless hapart) fun file hf => h.canPass hbase hf (hlimits file hf)

/-- Where nothing is refused and no limit is hit, and where no two paths are the same but for dots
and slashes, a mock is written below a base that does not lead up just when it is writable there,
in whatever order its files are. -/
theorem succeeds_iff (base : Path) (host : Host) (mock : Mock) (fs : FileSystem)
    (hr : host.refusal = .never)
    (hbase : ['.', '.'] ∉ Path.pieces base.spelling.toList)
    (hlimits : ∀ file ∈ mock.files, WithinLimits (base.join ⟨file.path⟩))
    (hapart : mock.files.Pairwise fun first second => ¬Respelled first.path second.path) :
    ((∃ paths, (write ⟨base, host⟩ mock fs).value = .ok paths) ↔
      Writable base mock.files fs) ∧
    ∀ reordered : Mock, reordered.files.Perm mock.files →
      ((∃ paths, (write ⟨base, host⟩ reordered fs).value = .ok paths) ↔
        ∃ paths, (write ⟨base, host⟩ mock fs).value = .ok paths) := by
  have hiff := write_ok_iff fs hr hbase hlimits hapart
  refine ⟨hiff, fun reordered hperm => ?_⟩
  have hreordered := write_ok_iff fs hr hbase
    (fun file hf => hlimits file (hperm.mem_iff.1 hf))
    (hperm.symm.pairwise hapart fun h hsame => h hsame.symm)
  rw [hiff, hreordered]
  exact ⟨fun h => h.of_subset hperm.symm.subset, fun h => h.of_subset hperm.subset⟩

end Writable

/-- The old header is replaced and the source gets a directory, whichever is written first. -/
theorem source_before_header :
    (write ⟨⟨"out"⟩, .counting⟩
        ⟨⟨"Mockuart"⟩, [⟨"./Mockuart.h", "new"⟩, ⟨"src/Mockuart.c", "new"⟩]⟩ outdated).value =
      .ok [⟨"out/./Mockuart.h"⟩, ⟨"out/src/Mockuart.c"⟩] ∧
    Writable ⟨"out"⟩ [⟨"./Mockuart.h", "new"⟩, ⟨"src/Mockuart.c", "new"⟩] outdated ∧
    ∃ paths, (write ⟨⟨"out"⟩, .counting⟩
        ⟨⟨"Mockuart"⟩, [⟨"src/Mockuart.c", "new"⟩, ⟨"./Mockuart.h", "new"⟩]⟩ outdated).value =
      .ok paths := by
  have hok : (write ⟨⟨"out"⟩, .counting⟩
      ⟨⟨"Mockuart"⟩, [⟨"./Mockuart.h", "new"⟩, ⟨"src/Mockuart.c", "new"⟩]⟩ outdated).value =
      .ok [⟨"out/./Mockuart.h"⟩, ⟨"out/src/Mockuart.c"⟩] := by decide +kernel
  have hlimits : ∀ file ∈ [⟨"./Mockuart.h", "new"⟩, ⟨"src/Mockuart.c", "new"⟩],
      WithinLimits ((⟨"out"⟩ : Path).join ⟨MockFile.path file⟩) := by
    simp only [List.forall_mem_cons, List.not_mem_nil, false_imp_iff, implies_true, and_true]
    exact ⟨⟨by decide +kernel, by decide +kernel, by decide +kernel⟩,
      ⟨by decide +kernel, by decide +kernel, by decide +kernel⟩⟩
  have hapart : ¬Respelled "./Mockuart.h" "src/Mockuart.c" :=
    fun h => absurd h.2.2 (by decide +kernel)
  obtain ⟨hiff, horder⟩ := succeeds_iff ⟨"out"⟩ .counting
    ⟨⟨"Mockuart"⟩, [⟨"./Mockuart.h", "new"⟩, ⟨"src/Mockuart.c", "new"⟩]⟩ outdated rfl (by decide)
    hlimits (List.pairwise_pair.2 hapart)
  exact ⟨hok, hiff.1 ⟨_, hok⟩, (horder _ (.swap _ _ _)).2 ⟨_, hok⟩⟩

end MockForge.Writer

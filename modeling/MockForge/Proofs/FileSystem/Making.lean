import MockForge.Proofs.FileSystem.Leading
import MockForge.Proofs.FileSystem.Presence

/-!
# Making directories

Where no file is in the way, a path that goes down can be followed as far as there are directories,
and the directories that are missing can be made. Main statement: `makeDirectories_ensures_made`.
-/

namespace MockForge.FileSystem

variable {fs : FileSystem} {p : Path} {place location b : Location} {pieces : List (List Char)}

/-! ## Around an entry -/

/-- Whatever is found somewhere, everything around it is a directory. -/
theorem get?_of_suffix {entry : Entry} (h : fs.get? location = some entry) (hs : b <:+ location)
    (hne : b ≠ location) : fs.get? b = some .directory := by
  induction location generalizing entry with
  | nil => exact absurd (List.suffix_nil.1 hs) hne
  | cons name place ih =>
      have hplace := get?_tail h
      rcases List.suffix_cons_iff.1 hs with rfl | hs
      · exact absurd rfl hne
      · by_cases hb : b = place
        · rw [hb, hplace]
        · exact ih hplace hs hb

theorem directory_of_suffix (h : fs.get? location = some .directory) (hs : b <:+ location) :
    fs.get? b = some .directory := by
  by_cases hb : b = location
  · rw [hb, h]
  · exact get?_of_suffix h hs hb

/-- No file is at a location or around it. -/
def Clear (fs : FileSystem) (location : Location) : Prop :=
  ∀ b, b <:+ location → ∀ contents, fs.get? b ≠ some (.file contents)

theorem Clear.of_suffix (h : fs.Clear location) (hs : b <:+ location) : fs.Clear b :=
  fun c hc => h c (hc.trans hs)

/-- Where no file is there is a directory, or nothing. -/
theorem Clear.directory_or_none (h : fs.Clear location) :
    fs.get? location = some .directory ∨ fs.get? location = none := by
  match hg : fs.get? location with
  | none => exact .inr rfl
  | some .directory => exact .inl rfl
  | some (.file contents) => exact absurd hg (h location (List.suffix_refl _) contents)

/-! ## Following pieces -/

/-- Pieces of which none leads up and none is too long for a name. -/
structure Passable (pieces : List (List Char)) : Prop where
  noUp : ['.', '.'] ∉ pieces
  short : ∀ piece ∈ pieces, (String.ofList piece).utf8ByteSize ≤ maxNameSize

theorem Passable.of_subset {more : List (List Char)} (h : Passable more) (hs : pieces ⊆ more) :
    Passable pieces :=
  ⟨fun hm => h.noUp (hs hm), fun piece hm => h.short piece (hs hm)⟩

theorem Passable.tail {piece : List Char} (h : Passable (piece :: pieces)) : Passable pieces :=
  h.of_subset (List.subset_cons_self _ _)

theorem suffix_foldl_heading (h : ['.', '.'] ∉ pieces) (place : Location) :
    place <:+ pieces.foldl heading place := by
  rw [foldl_heading h]
  exact List.suffix_append _ _

/-- A single step down, from a directory or from where nothing is. -/
theorem step_of_directory {piece : List Char} (h : Passable (piece :: pieces))
    (hd : fs.get? place = some .directory) : fs.step place piece = .ok (heading place piece) := by
  have hr := requireDirectory_eq_ok_iff.2 hd
  unfold step heading
  split
  · rw [hr]
    rfl
  · rw [hr]
    rfl
  · exact nameIn_eq_ok_iff.2 ⟨hd, h.short piece List.mem_cons_self, rfl⟩

theorem step_of_absent (piece : List Char) (hn : fs.get? place = none) :
    fs.step place piece = .error .notFound := by
  have hr : fs.requireDirectory place = .error .notFound := by rw [requireDirectory, hn]
  unfold step nameIn
  split <;> rw [hr] <;> rfl

/-- Pieces can be followed to a directory. -/
theorem walk_of_directory (h : Passable pieces)
    (hd : fs.get? (pieces.foldl heading place) = some .directory) :
    fs.walk place pieces = .ok (pieces.foldl heading place) := by
  induction pieces generalizing place with
  | nil => rfl
  | cons piece pieces ih =>
      have hplace := directory_of_suffix hd (suffix_foldl_heading h.noUp place)
      rw [walk, List.foldlM_cons, step_of_directory h hplace]
      exact ih h.tail hd

/-- Where no file is in the way, pieces can be followed, or a directory is missing. -/
theorem walk_cases (h : Passable pieces) (hc : fs.Clear (pieces.foldl heading place)) :
    fs.walk place pieces = .ok (pieces.foldl heading place) ∨
      fs.walk place pieces = .error .notFound := by
  induction pieces generalizing place with
  | nil => exact .inl rfl
  | cons piece pieces ih =>
      rw [walk, List.foldlM_cons]
      rcases (hc.of_suffix (suffix_foldl_heading h.noUp place)).directory_or_none with hd | hn
      · rw [step_of_directory h hd]
        exact ih h.tail hc
      · rw [step_of_absent piece hn]
        exact .inr rfl

/-- Pieces that go down pass through whatever is around their end. -/
theorem mem_passed_of_suffix (h : ['.', '.'] ∉ pieces) (hs : b <:+ pieces.foldl heading place)
    (hb : place <:+ b) : b ∈ passed place pieces := by
  induction pieces generalizing place with
  | nil => simp [passed, hs.eq_of_length_le hb.length_le]
  | cons piece pieces ih =>
      by_cases heq : b = place
      · simp [passed, heq]
      · rw [List.mem_cons, not_or] at h
        refine List.mem_cons_of_mem _ (ih h.2 hs ?_)
        -- A step down goes to a location that is longer by one name at most.
        refine List.suffix_of_suffix_length_le (suffix_foldl_heading h.2 _) hs ?_
        have hlt := hb.length_le.lt_of_ne fun he => heq (hb.eq_of_length he).symm
        unfold heading
        split
        · exact hb.length_le
        · next hup => exact absurd (Path.ofPiece?_eq_up_iff.1 hup).symm h.1
        · exact hlt

/-! ## Looking paths up -/

/-- A path that goes down by names of which none is too long, and is not too long itself. -/
structure CanPass (p : Path) : Prop where
  admitted : admitted p = .ok (Path.pieces p.spelling.toList)
  passable : Passable (Path.pieces p.spelling.toList)

theorem CanPass.ne_empty (h : CanPass p) : p.spelling ≠ "" := by
  intro he
  have ha := h.admitted
  simp [FileSystem.admitted, he] at ha

theorem CanPass.mem_passages (h : CanPass p) (hs : b <:+ leadsTo p) : b ∈ passages p :=
  mem_passed_of_suffix h.passable.noUp hs List.nil_suffix

theorem locate_of_admitted (h : CanPass p) :
    fs.locate p = fs.walk [] (Path.pieces p.spelling.toList) := by
  rw [locate, h.admitted]
  rfl

theorem locate_cases (h : CanPass p) (hc : fs.Clear (leadsTo p)) :
    fs.locate p = .ok (leadsTo p) ∨ fs.locate p = .error .notFound := by
  rw [locate_of_admitted h]
  exact walk_cases h.passable hc

/-- What a path with an idle end leads to is a directory. -/
theorem directory_of_isIdle {before : List (List Char)} {last : List Char}
    (hp : Path.pieces p.spelling.toList = before ++ [last]) (hi : Path.isIdle last = true)
    (h : fs.locate p = .ok location) : fs.get? location = some .directory := by
  rw [locate, bind_eq_ok] at h
  obtain ⟨pieces, ha, hw⟩ := h
  rw [admitted_eq_ok ha, hp, walk_append, bind_eq_ok] at hw
  obtain ⟨around, -, hlast⟩ := hw
  have hsame : location = around := by
    rw [walk_eq_foldl hlast]
    exact foldl_heading_of_isIdle (by simpa using hi) around
  rw [hsame]
  exact directory_of_walk (List.cons_ne_nil _ _) hlast

/-- A path that ends in a name leads there from the directory around it, whatever is there. -/
theorem locate_of_around (h : CanPass p) (hn : p.IsNamed)
    (hd : fs.get? (leadsTo p).tail = some .directory) : fs.locate p = .ok (leadsTo p) := by
  obtain ⟨before, last, name, hpieces, hname⟩ := hn
  have hpass : Passable (before ++ [last]) := hpieces ▸ h.passable
  have hlast : heading (before.foldl heading []) last =
      String.ofList last :: before.foldl heading [] := by rw [heading, hname]
  have hleads : leadsTo p = String.ofList last :: before.foldl heading [] := by
    rw [leadsTo, hpieces, List.foldl_append, List.foldl_cons, List.foldl_nil, hlast]
  rw [hleads, List.tail_cons] at hd
  have hbefore := walk_of_directory (hpass.of_subset (List.subset_append_left _ _)) hd
  have hstep := step_of_directory (hpass.of_subset (List.subset_append_right _ _)) hd
  rw [locate_of_admitted h, hpieces, walk_append, hbefore, hleads, ← hlast]
  show fs.walk _ [last] = _
  rw [walk, List.foldlM_cons, hstep]
  rfl

/-- The aim of a path that ends in a name is what the path leads to. -/
theorem aim_of_isNamed (h : CanPass p) (hn : p.IsNamed) (unnamed : FileFault) :
    fs.aim p unnamed = (fs.locate p).map (·, false) := by
  obtain ⟨before, last, name, hpieces, hname⟩ := hn
  have hidle : ¬(Path.isIdle last || last = ['.', '.']) = true := by
    intro hi
    rw [Bool.or_eq_true, decide_eq_true_eq] at hi
    rcases hi with hi | rfl
    · simp [Path.Component.ofPiece?, hi] at hname
    · cases hname
  have htarget : target p = .ok (last :: before.reverse, false) := by
    have hne : last ≠ [] := fun he => hidle (by simp [Path.isIdle, he])
    simp [target, h.admitted, hpieces, hne, bind, Except.bind, pure, Except.pure]
  rw [locate_of_admitted h, hpieces, walk_append, aim, htarget]
  show (fs.walk [] before.reverse.reverse >>= fun around => _) = _
  rw [List.reverse_reverse]
  cases hw : fs.walk [] before with
  | error fault => rfl
  | ok around =>
      show (if _ then _ else _) = (fs.walk around [last]).map _
      rw [if_neg hidle, walk, List.foldlM_cons, step_name hidle]
      cases fs.nameIn around last <;> rfl

theorem vacancy_of_isNamed (h : CanPass p) (hn : p.IsNamed) :
    fs.vacancy p = fs.locate p >>= fun location =>
      if (fs.get? location).isSome then .error .alreadyExists else .ok location := by
  rw [vacancy, aim_of_isNamed h hn]
  cases fs.locate p <;> rfl

theorem vacancy_of_absent (h : CanPass p) (hn : p.IsNamed) (hl : fs.locate p = .ok location)
    (hv : fs.get? location = none) : fs.vacancy p = .ok location := by
  rw [vacancy_of_isNamed h hn, hl]
  exact if_neg (by simp [hv])

/-- A file can be moved to a path that ends in a name, but onto no directory. -/
theorem destination_of_isNamed (h : CanPass p) (hn : p.IsNamed)
    (hd : fs.get? (leadsTo p).tail = some .directory) (hv : fs.get? (leadsTo p) ≠ some .directory) :
    fs.destination p = .ok (leadsTo p) := by
  rw [destination, aim_of_isNamed h hn, locate_of_around h hn hd]
  simp [Except.map, bind, Except.bind, hv]

/-! ## Making a directory -/

/-- Nothing but directories is new. -/
def OnlyDirectories (fs later : FileSystem) : Prop :=
  ∀ b contents, later.get? b = some (.file contents) → fs.get? b = some (.file contents)

theorem OnlyDirectories.clear {later : FileSystem} (h : OnlyDirectories fs later)
    (hc : fs.Clear location) : later.Clear location :=
  fun b hb contents hg => hc b hb contents (h b contents hg)

theorem isDirectory_of_locate (hl : fs.locate p = .ok location)
    (hd : fs.get? location = some .directory) : fs.isDirectory p = true := by
  simp [isDirectory, find, hl, hd, bind, Except.bind]

theorem makeDirectory_ensures_error {refusal : Refusal} {fault : FileFault}
    {post : Except FileFault Unit → FileSystem → Prop} (hv : fs.vacancy p = .error fault)
    (h : post (.error fault) fs) : (makeDirectory refusal p).Ensures fs post := by
  refine Task.ensures_bind (Task.ensures_look ?_)
  rw [hv]
  exact h

/-- What is tried at a path that ends in a name makes its directory, or finds it there, or finds
that the one around it is missing. -/
theorem makeDirectory_ensures_cases (h : CanPass p) (hn : p.IsNamed)
    (hc : fs.Clear (leadsTo p)) :
    (makeDirectory .never p).Ensures fs fun result later =>
      result = .ok () ∧ later.get? (leadsTo p) = some .directory ∧ OnlyDirectories fs later ∨
      later = fs ∧ (result = .error .alreadyExists ∧ fs.get? (leadsTo p) = some .directory ∧
          fs.isDirectory p = true ∨
        result = .error .notFound ∧ fs.locate p = .error .notFound) := by
  refine Task.ensures_bind (Task.ensures_look ?_)
  rcases locate_cases h hc with hl | hl
  · rcases hc.directory_or_none with hd | hv
    · rw [vacancy_of_present hl hd]
      exact .inr ⟨rfl, .inl ⟨rfl, hd, isDirectory_of_locate hl hd⟩⟩
    · have hvacancy := vacancy_of_absent h hn hl hv
      obtain ⟨haround, -, -⟩ := vacancy_eq_ok hvacancy
      have hget (b : Location) : (fs.perform (.makeDirectory (leadsTo p))).get? b =
          if b = leadsTo p then some .directory else fs.get? b := by
        rw [perform, get?_add]
        simp [haround, hv]
      rw [hvacancy]
      refine .inl ⟨rfl, (hget _).trans (if_pos rfl), fun b contents hb => ?_⟩
      replace hb := (hget b).symm.trans hb
      split at hb
      · cases hb
      · exact hb
  · rw [vacancy_of_isNamed h hn, hl]
    exact .inr ⟨rfl, .inr ⟨rfl, rfl⟩⟩

/-! ## Making all directories of a path -/

/-- Paths of directories, each in the one after it, down to one that is always there: the working
directory or the root. They end where the first one leads. -/
inductive Ladder : List Path → Location → Prop where
  | ground {p : Path} {above : List Path} (h : p.spelling = "") : Ladder (p :: above) []
  | stand {p : Path} {above : List Path} (h : p = ⟨"."⟩ ∨ p = ⟨"/"⟩) : Ladder (p :: above) []
  | rung {p : Path} {above : List Path} {name : String} {place : Location} (hp : CanPass p)
      (hn : p.IsNamed) (hl : leadsTo p = name :: place) (h : Ladder above place) :
      Ladder (p :: above) (name :: place)

/-- One more name makes one more rung. -/
theorem Ladder.assemble {start : Path.Start} {before : List (List Char)} {piece : List Char}
    {above : List Path} (hi : ¬Path.isIdle piece = true)
    (hs : ∀ other ∈ before ++ [piece], '/' ∉ other)
    (hp : (Path.assemble start (before ++ [piece])).spelling = "" ∨
      CanPass (Path.assemble start (before ++ [piece])))
    (h : Ladder above (before.foldl heading [])) :
    Ladder (Path.assemble start (before ++ [piece]) :: above)
      ((before ++ [piece]).foldl heading []) := by
  have hne : before ++ [piece] ≠ [] := by simp
  have hleads := leadsTo_assemble start hne hs
  obtain ⟨idle, hpieces, -⟩ := pieces_assemble start hne hs
  rw [← List.append_assoc] at hpieces
  have hpass : CanPass (Path.assemble start (before ++ [piece])) := by
    refine hp.resolve_left fun he => hi ?_
    -- The only piece of the empty path says nothing.
    have hlast := congrArg List.getLast? hpieces
    rw [he, List.getLast?_concat] at hlast
    rw [← Option.some.inj hlast]
    rfl
  have hname := Path.ofPiece?_eq_name hi fun he => hpass.passable.noUp (by rw [hpieces]; simp [he])
  rw [List.foldl_append, List.foldl_cons, List.foldl_nil, heading, hname] at hleads ⊢
  exact .rung hpass ⟨_, _, _, hpieces, hname⟩ hleads h

/-- The directories of a path are such paths. -/
theorem ladder_lineage {start : Path.Start} (hs : ∀ piece ∈ pieces, '/' ∉ piece)
    (hp : ∀ above ∈ Path.lineage start pieces, above.spelling = "" ∨ CanPass above) :
    Ladder (Path.lineage start pieces) (pieces.reverse.foldl heading []) := by
  induction pieces with
  | nil =>
      cases start with
      | plain => exact .ground rfl
      | here => exact .stand (.inl rfl)
      | root => exact .stand (.inr rfl)
  | cons piece earlier ih =>
      obtain ⟨-, hearlier⟩ := List.forall_mem_cons.1 hs
      have hslash : ∀ other ∈ earlier.reverse ++ [piece], '/' ∉ other := by
        rw [← List.reverse_cons]
        exact fun other hm => hs other (List.mem_reverse.1 hm)
      simp only [Path.lineage, List.reverse_cons] at hp ⊢
      split at hp
      · next hi =>
        rw [if_pos hi, List.foldl_append, List.foldl_cons, List.foldl_nil, heading,
          Path.Component.ofPiece?, if_pos hi]
        exact ih hearlier hp
      · next hi =>
        rw [if_neg hi]
        obtain ⟨hfirst, hrest⟩ := List.forall_mem_cons.1 hp
        exact (ih hearlier hrest).assemble hi hslash hfirst

theorem canPass_of_mem_parents {above : Path} (h : CanPass p) (ha : above ∈ p.parents) :
    above.spelling = "" ∨ CanPass above := by
  rcases Path.toList_of_mem_parents ha with he | he | ⟨rest, hrest⟩
  · exact .inl he
  · rw [show above = ⟨"/"⟩ from congrArg Path.mk he]
    exact .inr ⟨rfl, by decide, by decide⟩
  · by_cases he : above.spelling = ""
    · exact .inl he
    · refine .inr ⟨admitted_of_append h.admitted hrest he, h.passable.of_subset ?_⟩
      rw [hrest, Path.pieces_append_slash]
      exact List.subset_append_left _ _

/-- A directory of a path lies around what the path names. -/
theorem leadsTo_suffix_of_mem_parents {above : Path}
    (hup : ['.', '.'] ∉ Path.pieces p.spelling.toList) (hn : p.IsNamed) (ha : above ∈ p.parents) :
    leadsTo above <:+ (leadsTo p).tail := by
  obtain ⟨body, name, hparents, hbody, hleads⟩ := parents_of_isNamed hn
  rw [hleads, List.tail_cons]
  rw [hparents] at ha
  rcases Path.mem_lineage ha with ⟨dropped, earlier, hsplit, he, rfl⟩ | hstart
  · have hbody' : body = earlier.reverse ++ dropped.reverse := by
      rw [← List.reverse_append, ← hsplit, List.reverse_reverse]
    have hslash : ∀ piece ∈ earlier.reverse, '/' ∉ piece := fun piece hp =>
      Path.notMem_of_mem_pieces (hbody (by rw [hbody']; exact List.mem_append_left _ hp))
    rw [leadsTo_assemble _ (by simpa using he) hslash, hbody', List.foldl_append]
    refine suffix_foldl_heading (fun hm => hup (hbody ?_)) _
    rw [hbody']
    exact List.mem_append_right _ hm
  · have hnil : leadsTo above = [] := by
      cases hs : p.parts.1 <;> simp [hs, Path.lineage] at hstart
      · subst hstart; rfl
      · rcases hstart with rfl | rfl <;> rfl
      · subst hstart; rfl
    rw [hnil]
    exact List.nil_suffix

/-- The directories that a file lies in lead down to where it lies. -/
theorem ladder_surroundings (h : CanPass p) (hn : p.IsNamed) :
    Ladder (Writer.surroundings p) (leadsTo p).tail := by
  obtain ⟨body, name, hparents, hbody, hleads⟩ := parents_of_isNamed hn
  obtain ⟨above, hcons⟩ := exists_parents_eq_cons hn
  have hslash : ∀ piece ∈ body.reverse, '/' ∉ piece := fun piece hp =>
    Path.notMem_of_mem_pieces (hbody (List.mem_reverse.1 hp))
  have hsurroundings : Writer.surroundings p = p.parents := by rw [Writer.surroundings, hcons]
  have hladder := ladder_lineage hslash fun above ha => canPass_of_mem_parents h (hparents ▸ ha)
  rw [List.reverse_reverse, ← hparents, ← hsurroundings] at hladder
  rw [hleads]
  exact hladder

theorem orThere_ensures {fault : FileFault} {post : Except FileFault Unit → FileSystem → Prop}
    (h : fs.isDirectory p = true) (hp : post (.ok ()) fs) : (orThere p fault).Ensures fs post := by
  refine Task.ensures_bind (Task.ensures_look ?_)
  rw [if_pos h]
  exact hp

/-- A directory that is there is not made again, and so none above it is looked at. -/
theorem makeDirectories_ensures_there {above : List Path} (refusal : Refusal)
    (h : fs.directory p = .ok place) :
    (makeDirectories refusal (p :: above)).Ensures fs fun result later =>
      result = .ok () ∧ later = fs := by
  unfold directory at h
  rw [makeDirectories]
  split at h
  · next hempty =>
    rw [if_pos hempty]
    exact ⟨rfl, rfl⟩
  · next hempty =>
    simp only [bind_eq_ok] at h
    obtain ⟨location, hl, ⟨⟩, hd, -⟩ := h
    replace hd := requireDirectory_eq_ok_iff.1 hd
    rw [if_neg hempty]
    refine Task.ensures_bind (makeDirectory_ensures_error (vacancy_of_present hl hd) ?_)
    exact orThere_ensures (isDirectory_of_locate hl hd) ⟨rfl, rfl⟩

/-- Where no file is in the way, all directories of a path can be made. -/
theorem makeDirectories_ensures_made {lineage : List Path} (h : Ladder lineage place)
    (hc : fs.Clear place) :
    (makeDirectories .never lineage).Ensures fs fun result later =>
      result = .ok () ∧ later.get? place = some .directory ∧ OnlyDirectories fs later := by
  induction h generalizing fs with
  | @ground p above h =>
      rw [makeDirectories, if_pos h]
      exact ⟨rfl, rfl, fun _ _ hb => hb⟩
  | @stand p above h =>
      have hvacancy : fs.vacancy p = .error .alreadyExists := by rcases h with rfl | rfl <;> rfl
      have hthere : fs.isDirectory p = true := by rcases h with rfl | rfl <;> rfl
      rw [makeDirectories, if_neg (by rcases h with rfl | rfl <;> decide)]
      refine Task.ensures_bind (makeDirectory_ensures_error hvacancy ?_)
      exact orThere_ensures hthere ⟨rfl, rfl, fun _ _ hb => hb⟩
  | @rung p above name place hp hn hl h ih =>
      rw [makeDirectories, if_neg hp.ne_empty]
      refine Task.ensures_bind ((makeDirectory_ensures_cases hp hn (hl ▸ hc)).weaken ?_)
      rintro result later (⟨rfl, hd, ho⟩ | ⟨rfl, ⟨rfl, hd, hthere⟩ | ⟨rfl, -⟩⟩)
      · exact ⟨rfl, hl ▸ hd, ho⟩
      · exact orThere_ensures hthere ⟨rfl, hl ▸ hd, fun _ _ hb => hb⟩
      · refine Task.ensures_bind ((ih (hc.of_suffix (List.suffix_cons _ _))).weaken ?_)
        rintro result middle ⟨rfl, hd, ho⟩
        have haround : middle.get? (leadsTo p).tail = some .directory := by rw [hl]; exact hd
        have hagain := makeDirectory_ensures_cases hp hn (hl ▸ ho.clear hc)
        refine Task.ensures_bind (hagain.weaken ?_)
        rintro result last (⟨rfl, hd, hmore⟩ | ⟨rfl, ⟨rfl, hd, hthere⟩ | ⟨rfl, habsent⟩⟩)
        · exact ⟨rfl, hl ▸ hd, fun b contents hb => ho b contents (hmore b contents hb)⟩
        · exact orThere_ensures hthere ⟨rfl, hl ▸ hd, ho⟩
        · rw [locate_of_around hp hn haround] at habsent
          cases habsent

end MockForge.FileSystem

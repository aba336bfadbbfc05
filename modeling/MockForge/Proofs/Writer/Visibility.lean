import MockForge.Proofs.FileSystem.Passage
import MockForge.Proofs.Writer.Completion

/-!
# What can be seen while a mock is written

Whoever looks between two operations, or finds what a crash left, sees at each target either what
was there before or the whole content of a file of the mock. `Shown` says so of one file system; it
is shown for every step of the writer that it passes through such file systems only.
-/

namespace MockForge.Writer

open FileSystem (DirectoriesStay SameFile)

variable {host : Host} {paths : List Path} {texts : List (Path × String)} {target : Path}
  {backup : Option Location} {start now later last : FileSystem} {b location : Location}

/-- Where nothing was, and no target leads. -/
def IsSpare (paths : List Path) (start : FileSystem) (b : Location) : Prop :=
  start.get? b = none ∧ IsTemporary paths b

/-- Everywhere but at spare locations there is the file that was there at the start, or else the
whole text for a target that leads there. -/
structure Shown (paths : List Path) (texts : List (Path × String)) (start now : FileSystem) :
    Prop where
  stay : DirectoriesStay start now
  file : ∀ b, SameFile start now b ∨ IsSpare paths start b ∨
    ∃ q ∈ texts, now.locate q.1 = .ok b ∧ now.get? b = some (.file q.2.toUTF8)

namespace Shown

theorem refl (paths : List Path) (texts : List (Path × String)) (start : FileSystem) :
    Shown paths texts start start := ⟨.refl start, fun _ => .inl (.of_eq rfl)⟩

theorem weaken (h : Shown paths [] start now) : Shown paths texts start now := by
  refine ⟨h.stay, fun b => ?_⟩
  rcases h.file b with hb | hb | ⟨q, hq, -⟩
  · exact .inl hb
  · exact .inr (.inl hb)
  · cases hq

/-- What is shown at a location stays so while the entry there stays. -/
theorem at_of_eq (h : Shown paths texts start now) (hs : DirectoriesStay now later)
    (hb : SameFile now later b) : SameFile start later b ∨ IsSpare paths start b ∨
      ∃ q ∈ texts, later.locate q.1 = .ok b ∧ later.get? b = some (.file q.2.toUTF8) := by
  rcases h.file b with hf | hf | ⟨q, hq, hl, hg⟩
  · exact .inl (hf.trans hb)
  · exact .inr (.inl hf)
  · exact .inr (.inr ⟨q, hq, FileSystem.locate_of_stay hs hl, (hb _).2 hg⟩)

/-- A temporary file that is made lies at a spare location. -/
theorem isSpare (h : Shown paths texts start now) (ht : IsTemporary paths b)
    (hv : now.get? b = none) : IsSpare paths start b := by
  refine ⟨?_, ht⟩
  cases hg : start.get? b with
  | none => rfl
  | some entry =>
      cases entry with
      | directory =>
          rw [h.stay hg] at hv
          cases hv
      | file contents =>
          rcases h.file b with hf | ⟨hn, -⟩ | ⟨q, -, -, hq⟩
          · rw [(hf contents).2 hg] at hv
            cases hv
          · rw [hn] at hg
            cases hg
          · rw [hq] at hv
            cases hv

theorem makeDirectory (h : Shown paths texts start now) (location : Location) :
    Shown paths texts start (now.perform (.makeDirectory location)) := by
  have hs : DirectoriesStay now (now.perform (.makeDirectory location)) :=
    fun _ hd => FileSystem.get?_perform_directory hd _
  exact ⟨h.stay.trans hs,
    fun b => h.at_of_eq hs (FileSystem.sameFile_makeDirectory now location b)⟩

/-- What an operation does at spare locations is not shown. -/
theorem perform (h : Shown paths texts start now) (operation : FileSystem.Operation)
    (ho : ∀ b ∈ operation.changed, IsSpare paths start b) :
    Shown paths texts start (now.perform operation) := by
  have hs : DirectoriesStay now (now.perform operation) :=
    fun _ hd => FileSystem.get?_perform_directory hd _
  refine ⟨h.stay.trans hs, fun b => ?_⟩
  by_cases hb : b ∈ operation.changed
  · exact .inr (.inl (ho b hb))
  · exact h.at_of_eq hs (.of_eq (FileSystem.get?_perform_of_notMem hb))

/-- A file may go where nothing was at the start. -/
theorem remove (h : Shown paths texts start now) (hv : start.get? location = none) :
    Shown paths texts start (now.perform (.remove location)) := by
  have hs : DirectoriesStay now (now.perform (.remove location)) :=
    fun _ hd => FileSystem.get?_perform_directory hd _
  refine ⟨h.stay.trans hs, fun b => ?_⟩
  by_cases hb : b = location
  · subst hb
    refine .inl (.of_absent (by simp [hv]) fun contents hc => ?_)
    by_cases hf : ∃ old, now.get? b = some (.file old)
    · obtain ⟨old, ho⟩ := hf
      rw [FileSystem.perform, FileSystem.get?_remove ho, if_pos rfl] at hc
      cases hc
    · rw [FileSystem.perform, FileSystem.remove_eq_self fun old ho => hf ⟨old, ho⟩] at hc
      exact hf ⟨contents, hc⟩
  · refine h.at_of_eq hs (.of_eq (FileSystem.get?_perform_of_notMem ?_))
    simpa [FileSystem.Operation.changed] using hb

/-- What is everywhere as in one of two file systems that may be shown may be shown. -/
theorem mix (h : Shown paths texts start now) (hl : Shown paths texts start last)
    (hs : DirectoriesStay now later) (hsl : DirectoriesStay last later)
    (he : ∀ b, later.get? b = now.get? b ∨ later.get? b = last.get? b) :
    Shown paths texts start later := by
  refine ⟨h.stay.trans hs, fun b => ?_⟩
  rcases he b with hb | hb
  · exact h.at_of_eq hs (.of_eq hb)
  · exact hl.at_of_eq hsl (.of_eq hb)

/-- A staged file may move to its target. -/
theorem rename (h : Shown paths texts start now) {staged : Location} {text : String}
    (hspare : IsSpare paths start staged) (hf : now.get? staged = some (.file text.toUTF8))
    (ht : (target, text) ∈ texts) (hd : now.destination target = .ok location) :
    Shown paths texts start (now.perform (.rename staged location)) := by
  obtain ⟨haround, hnd, hloc⟩ := FileSystem.destination_eq_ok hd
  have hs : DirectoriesStay now (now.perform (.rename staged location)) :=
    fun _ hd => FileSystem.get?_perform_directory hd _
  refine ⟨h.stay.trans hs, fun b => ?_⟩
  by_cases hb : b = location
  · refine .inr (.inr ⟨(target, text), ht, FileSystem.locate_of_stay hs (hb ▸ hloc), ?_⟩)
    rw [FileSystem.perform, FileSystem.get?_rename hf haround hnd, if_pos hb]
  · by_cases hbs : b = staged
    · exact .inr (.inl (hbs ▸ hspare))
    · refine h.at_of_eq hs (.of_eq (FileSystem.get?_perform_of_notMem ?_))
      simp [FileSystem.Operation.changed, hb, hbs]

end Shown

/-! ## Staging -/

theorem makeDirectory_throughout (refusal : FileSystem.Refusal) (p : Path)
    (h : Shown paths texts start now) :
    (FileSystem.makeDirectory refusal p).Throughout now (Shown paths texts start) := by
  refine Task.throughout_look_bind ?_
  split
  · exact Task.throughout_idle h rfl
  · exact Task.throughout_attempt h (h.makeDirectory _)

theorem makeDirectories_throughout (refusal : FileSystem.Refusal) (lineage : List Path)
    (h : Shown paths texts start now) :
    (FileSystem.makeDirectories refusal lineage).Throughout now (Shown paths texts start) := by
  induction lineage generalizing now with
  | nil => exact Task.throughout_idle h rfl
  | cons p above ih =>
      unfold FileSystem.makeDirectories
      split
      · exact Task.throughout_idle h rfl
      · refine (makeDirectory_throughout refusal p h).bind fun result now h => ?_
        split
        · exact Task.throughout_idle h rfl
        · refine (ih h).bind fun result now h => ?_
          split
          · exact Task.throughout_idle h rfl
          · refine (makeDirectory_throughout refusal p h).bind fun result now h => ?_
            split
            · exact Task.throughout_idle h rfl
            · exact Task.throughout_idle h rfl
        · exact Task.throughout_idle h rfl

theorem makeTemporary_throughout (host : Host) (target : Path) (contents : ByteArray)
    (blamed : String → Path) (h : Shown paths texts start now) :
    (makeTemporary host paths target contents blamed).Throughout now
      (Shown paths texts start) := by
  refine Task.throughout_look_bind ?_
  split
  · exact Task.throughout_idle h rfl
  · next place hp =>
    obtain ⟨ht, hv⟩ := pick_isTemporary host.namer now paths place
    have hspare := h.isSpare ht hv
    generalize host.namer.pick (takenNames now paths place) = name at hspare ⊢
    have hcreate := h.perform (.createFile (name :: place))
      (by simpa [FileSystem.Operation.changed] using hspare)
    have hfill := hcreate.perform (.fill (name :: place) contents)
      (by simpa [FileSystem.Operation.changed] using hspare)
    refine Task.throughout_bind (Task.throughout_attempt h hcreate)
      (Task.ensures_attempt (fun fault => Task.throughout_idle h rfl) ?_)
    refine Task.throughout_bind (Task.throughout_attempt hcreate hfill)
      (Task.ensures_attempt (fun fault => ?_) (Task.throughout_idle hfill rfl))
    refine (Task.throughout_perform hcreate (hcreate.remove hspare.1)).bind fun _ now h => ?_
    exact Task.throughout_idle h rfl

theorem stage_throughout (host : Host) (target : Path) (text : String)
    (h : Shown paths texts start now) :
    (stage host paths target text).Throughout now (Shown paths texts start) := by
  refine (makeDirectories_throughout host.refusal (surroundings target) h).bind
    fun result now h => ?_
  split
  · exact Task.throughout_idle h rfl
  · refine (makeTemporary_throughout host target text.toUTF8 _ h).bind fun result now h => ?_
    split
    · exact Task.throughout_idle h rfl
    · exact Task.throughout_idle h rfl

theorem stageAll_throughout (host : Host) (pairs : List (Path × String))
    (h : Shown paths texts start now) :
    (stageAll host paths pairs).Throughout now (Shown paths texts start) := by
  induction pairs generalizing now with
  | nil => exact Task.throughout_idle h rfl
  | cons pair rest ih =>
      obtain ⟨target, text⟩ := pair
      unfold stageAll
      refine (stage_throughout host target text h).bind fun result now h => ?_
      split
      · exact Task.throughout_idle h rfl
      · refine (ih h).bind fun result now h => ?_
        split
        · exact Task.throughout_idle h rfl
        · exact Task.throughout_idle h rfl

theorem discard_throughout {locations : List Location} (h : Shown paths texts start now)
    (hv : ∀ b ∈ locations, start.get? b = none) :
    (discard locations).Throughout now (Shown paths texts start) := by
  induction locations generalizing now with
  | nil => exact Task.throughout_idle h rfl
  | cons location rest ih =>
      obtain ⟨hlocation, hrest⟩ := List.forall_mem_cons.1 hv
      exact (Task.throughout_perform h (h.remove hlocation)).bind fun _ now h => ih h hrest

/-! ## Placing -/

theorem backUp_throughout (host : Host) (target : Path) (h : Shown paths texts start now) :
    (backUp host paths target).Throughout now (Shown paths texts start) := by
  refine Task.throughout_look_bind ?_
  split
  · exact Task.throughout_idle h rfl
  · refine (makeTemporary_throughout host target _ _ h).bind fun result now h => ?_
    split
    · exact Task.throughout_idle h rfl
    · exact Task.throughout_idle h rfl

theorem move_throughout (host : Host) {staged : Location} {text : String}
    (h : Shown paths texts start now) (hspare : IsSpare paths start staged)
    (hf : now.get? staged = some (.file text.toUTF8)) (ht : (target, text) ∈ texts) :
    (move host staged target).Throughout now (Shown paths texts start) := by
  refine Task.throughout_look_bind ?_
  split
  · exact Task.throughout_idle h rfl
  · next location hd =>
    refine (Task.throughout_attempt h (h.rename hspare hf ht hd)).bind fun result now h => ?_
    split
    · exact Task.throughout_idle h rfl
    · exact Task.throughout_idle h rfl

/-- Undoing is one operation, so only its end is to be looked at. -/
theorem undo_throughout {inv : FileSystem → Prop} (h : inv last)
    (hn : (undo location backup).Ensures last fun _ now => inv now) :
    (undo location backup).Throughout last inv := by
  cases backup with
  | none => exact Task.throughout_perform h hn
  | some copy => exact Task.throughout_perform h hn

/-- Undoing a move brings back, where it went, what may be shown, since it was there before. -/
theorem Shown.undo {moved : FileSystem} {staged : Location} {rest left : List Location}
    (h : Shown paths texts start now) (hlast : Shown paths texts start last)
    (hu : Undone moved last rest left) (hw : Waiting paths now rest)
    (hm : Moved paths now moved staged location backup) (hs : DirectoriesStay now last) :
    (Writer.undo location backup).Throughout last (Shown paths texts start) := by
  refine undo_throughout hlast ((hu.get?_undo hw hm hs).with_stay.weaken ?_)
  rintro _ later ⟨hget, hsl⟩
  refine h.mix hlast (hs.trans hsl) hsl fun b => ?_
  rw [hget]
  by_cases hb : b = location
  · rw [if_pos hb, hb]
    exact .inl rfl
  · rw [if_neg hb]
    by_cases hc : backup = some b
    · rw [if_pos hc, (hm.former b hc).1]
      exact .inl rfl
    · rw [if_neg hc]
      exact .inr rfl

theorem placeAll_throughout {pairs : List (Location × Path)} (host : Host)
    (hp : ∀ q ∈ pairs, q.2 ∈ paths) (hw : Waiting paths now (pairs.map (·.1)))
    (hv : ∀ q ∈ pairs, start.get? q.1 = none)
    (hf : ∀ q ∈ pairs, ∃ text, (q.2, text) ∈ texts ∧
      now.get? q.1 = some (.file text.toUTF8))
    (h : Shown paths texts start now) :
    (placeAll host paths pairs).Throughout now (Shown paths texts start) := by
  induction pairs generalizing now with
  | nil => exact Task.throughout_idle h rfl
  | cons pair rest ih =>
      obtain ⟨staged, target⟩ := pair
      rw [List.map_cons] at hw
      obtain ⟨hptarget, hprest⟩ := List.forall_mem_cons.1 hp
      obtain ⟨hvstaged, hvrest⟩ := List.forall_mem_cons.1 hv
      obtain ⟨⟨text, htext, hstaged⟩, hfrest⟩ := List.forall_mem_cons.1 hf
      have htemp := hw.temporary staged List.mem_cons_self
      unfold placeAll
      -- `h` is needed twice: on the way there, and to undo this move when a later one fails.
      have hback := backUp_throughout host target h
      refine Task.throughout_bind hback
        (((backUp_ensures host paths target now).with_stay.and hback.ensures).weaken ?_)
      rintro (fault | backup) middle ⟨⟨hb, hs⟩, hmiddle⟩
      · exact Task.throughout_idle hmiddle rfl
      · have hmoves : (move host staged target).Throughout middle (Shown paths texts start) := by
          refine move_throughout host hmiddle ⟨hvstaged, htemp⟩ ?_ htext
          rw [hb.other fun hc => FileSystem.ne_of_vacant (hb.new hc).1 hstaged rfl, hstaged]
        have hmove := (move_ensures host staged target middle).with_stay
        refine Task.throughout_bind hmoves ((hmove.and hmoves.ensures).weaken ?_)
        rintro (fault | location) moved ⟨⟨hmove, hsm⟩, hmoved⟩
        · exact Task.throughout_idle hmoved rfl
        · obtain ⟨hdest, rfl⟩ := hmove
          have hm := Moved.of_rename hb hs hptarget htemp ⟨_, hstaged⟩ hdest
          have hkept : ∀ q ∈ rest, ∃ text, (q.2, text) ∈ texts ∧
              (middle.rename staged location).get? q.1 = some (.file text.toUTF8) := by
            intro q hq
            rw [hw.get?_moved hm (List.mem_map_of_mem hq)]
            exact hfrest q hq
          have hrest := ih hprest (hw.of_moved hm) hvrest hkept hmoved
          have hplace := (placeAll_ensures host hprest (hw.of_moved hm)).with_stay
          refine Task.throughout_bind hrest ((hplace.and hrest.ensures).weaken ?_)
          rintro (⟨fault, left⟩ | backups) last ⟨⟨hend, hsl⟩, hlast⟩
          · have hundo := h.undo hlast hend hw.tail hm (hs.trans (hsm.trans hsl))
            exact hundo.bind fun _ now h => Task.throughout_idle h rfl
          · exact Task.throughout_idle hlast rfl

/-! ## The whole -/

variable {base : Path} {mock : Mock} {middle : FileSystem} {locations : List Location}

/-- The texts of a mock, each with the path where it goes. -/
def textsBelow (base : Path) (mock : Mock) : List (Path × String) :=
  mock.files.map fun file => (base.join ⟨file.path⟩, file.content)

/-- A staged file holds the text that goes to the path to which it moves. -/
theorem AllStaged.text (h : AllStaged base mock start now locations) {q : Location × Path}
    (hq : q ∈ locations.zip (pathsBelow base mock)) :
    ∃ text, (q.2, text) ∈ textsBelow base mock ∧ now.get? q.1 = some (.file text.toUTF8) := by
  rw [pathsBelow, List.zip_map_right] at hq
  obtain ⟨⟨b, file⟩, hmem, rfl⟩ := List.mem_map.1 hq
  obtain ⟨-, hheld⟩ := List.forall₂_iff_zip.1 h.held.flip
  exact ⟨file.content, List.mem_map.2 ⟨file, (List.of_mem_zip hmem).2, rfl⟩, hheld hmem⟩

theorem AllStaged.placeAll_throughout (h : AllStaged base mock start middle locations)
    (host : Host) (hm : Shown (pathsBelow base mock) (textsBelow base mock) start middle) :
    (Writer.placeAll host (pathsBelow base mock)
      (locations.zip (pathsBelow base mock))).Throughout middle
        (Shown (pathsBelow base mock) (textsBelow base mock) start) := by
  refine Writer.placeAll_throughout host (fun q hq => (List.of_mem_zip hq).2) h.waiting ?_
    (fun q hq => h.text hq) hm
  exact fun q hq => (h.staged.temporary q.1 (List.of_mem_zip hq).1).1

/-- The operations of a task fall in two. Up to the point where all files of a mock are staged no
text of the mock is shown, and where this point is not reached nothing comes after. -/
def StagesFirst {α : Type} (task : Task α) (base : Path) (mock : Mock) (start : FileSystem) :
    Prop :=
  ∃ staging placing, (task start).operations = staging ++ placing ∧
    (placing = [] ∨
      ∃ locations, AllStaged base mock start (staging.foldl FileSystem.perform start) locations) ∧
    (∀ now ∈ start.states staging, Shown (pathsBelow base mock) [] start now) ∧
    ∀ now ∈ (staging.foldl FileSystem.perform start).states placing,
      Shown (pathsBelow base mock) (textsBelow base mock) start now

section StagesFirst

variable {α β : Type} {task : Task α} {next : α → Task β}

/-- All that is done is staging. -/
theorem stagesFirst_of_throughout
    (h : task.Throughout start (Shown (pathsBelow base mock) [] start)) :
    StagesFirst task base mock start := by
  refine ⟨_, [], (List.append_nil _).symm, .inl rfl, h, fun now hnow => ?_⟩
  rw [List.mem_singleton.1 hnow]
  exact (h _ (FileSystem.foldl_mem_states _)).weaken

/-- A task that stages all files, and one that goes on from there. -/
theorem stagesFirst_bind (h : task.Throughout start (Shown (pathsBelow base mock) [] start))
    (hs : AllStaged base mock start (task start).files locations)
    (hn : (next (task start).value).Throughout (task start).files
      (Shown (pathsBelow base mock) (textsBelow base mock) start)) :
    StagesFirst (task >>= next) base mock start := by
  refine ⟨(task start).operations, _, rfl, .inr ⟨locations, ?_⟩, h, ?_⟩
  · rwa [← (task start).files_eq]
  · rwa [← (task start).files_eq]

end StagesFirst

theorem write_stagesFirst (writer : Writer) (mock : Mock) (start : FileSystem) :
    StagesFirst (writer.write mock) writer.base mock start := by
  have hstart := Shown.refl (pathsBelow writer.base mock) [] start
  unfold write
  split
  · exact stagesFirst_of_throughout (Task.throughout_idle hstart rfl)
  · next paths htargets =>
    obtain rfl : paths = pathsBelow writer.base mock := targets_eq_ok htargets
    have hstages := stageAll_throughout writer.host
      ((pathsBelow writer.base mock).zip (mock.files.map MockFile.content)) hstart
    have hall := stageAll_stages writer.host writer.base mock start
    cases hv : (stageAll writer.host (pathsBelow writer.base mock)
        ((pathsBelow writer.base mock).zip (mock.files.map MockFile.content)) start).value with
    | error failure =>
        -- Discarding what was staged before the failure still comes before the split.
        refine stagesFirst_of_throughout (Task.throughout_bind hstages ?_)
        rw [Task.Ensures, hv] at hall ⊢
        exact (discard_throughout hstages.ensures fun b hb => (hall.temporary b hb).1).bind
          fun _ now h => Task.throughout_idle h rfl
    | ok locations =>
        rw [Task.Ensures, hv] at hall
        refine stagesFirst_bind hstages hall ?_
        rw [hv]
        have hplaces := hall.placeAll_throughout writer.host (Shown.weaken hstages.ensures)
        refine Task.throughout_bind hplaces
          (((hall.placeAll writer.host).and hplaces.ensures).weaken ?_)
        rintro (⟨fault, left⟩ | backups) now ⟨hplaced, hnow⟩
        · refine (discard_throughout hnow fun b hb => hall.staged.vacant ?_).bind
            fun _ later h => Task.throughout_idle h rfl
          exact (hplaced.temporary b hb).1
        · refine (discard_throughout hnow fun b hb => hall.staged.vacant ?_).bind
            fun _ later h => Task.throughout_idle h rfl
          have hbackup := (hplaced.backup b hb).2.1
          rwa [hall.map_zip] at hbackup

/-- What is shown at a location where a path leads. -/
theorem Shown.at_target (h : Shown paths texts start now) {path : Path} (hp : path ∈ paths)
    (hb : now.locate path = .ok b) : SameFile start now b ∨
      ∃ q ∈ texts, now.locate q.1 = .ok b ∧ now.get? b = some (.file q.2.toUTF8) := by
  rcases h.file b with hf | ⟨-, hspare⟩ | htext
  · exact .inl hf
  · exact absurd hb (hspare.locate_ne hp)
  · exact .inr htext

/-- A write stages all files first, and no file at a target changes before that. After that each
target holds at every moment what it held before the write, or the whole content of a file of the
mock that leads there. All other files stay at every moment, and what is new besides is where
nothing was and no target leads. -/
theorem no_partial_file (writer : Writer) (mock : Mock) (fs : FileSystem) :
    ∃ staging placing, (writer.write mock fs).operations = staging ++ placing ∧
      (placing = [] ∨ ∃ locations,
        AllStaged writer.base mock fs (staging.foldl FileSystem.perform fs) locations) ∧
      (∀ now ∈ fs.states staging, ∀ path ∈ pathsBelow writer.base mock, ∀ location,
        now.locate path = .ok location → SameFile fs now location) ∧
      (∀ now ∈ (staging.foldl FileSystem.perform fs).states placing,
        ∀ path ∈ pathsBelow writer.base mock, ∀ location, now.locate path = .ok location →
          SameFile fs now location ∨ ∃ file ∈ mock.files,
            now.locate (writer.base.join ⟨file.path⟩) = .ok location ∧
            now.get? location = some (.file file.content.toUTF8)) ∧
      ∀ now ∈ fs.states (writer.write mock fs).operations, ∀ location,
        (∀ path ∈ pathsBelow writer.base mock, now.locate path ≠ .ok location) →
          SameFile fs now location ∨ IsSpare (pathsBelow writer.base mock) fs location := by
  obtain ⟨staging, placing, hsplit, hstaged, hbefore, hafter⟩ := write_stagesFirst writer mock fs
  refine ⟨staging, placing, hsplit, hstaged, ?_, ?_, ?_⟩
  · intro now hnow path hp location hl
    rcases (hbefore now hnow).at_target hp hl with hf | ⟨q, hq, -⟩
    · exact hf
    · cases hq
  · intro now hnow path hp location hl
    rcases (hafter now hnow).at_target hp hl with hf | ⟨q, hq, hlq, hg⟩
    · exact .inl hf
    · obtain ⟨file, hfile, rfl⟩ := List.mem_map.1 hq
      exact .inr ⟨file, hfile, hlq, hg⟩
  · intro now hnow location hl
    have hshown : Shown (pathsBelow writer.base mock) (textsBelow writer.base mock) fs now := by
      rw [hsplit, FileSystem.mem_states_append] at hnow
      rcases hnow with hnow | hnow
      · exact (hbefore now hnow).weaken
      · exact hafter now hnow
    rcases hshown.file location with hf | hspare | ⟨q, hq, hlq, -⟩
    · exact .inl hf
    · exact .inr hspare
    · obtain ⟨file, hfile, rfl⟩ := List.mem_map.1 hq
      exact absurd hlq (hl _ (List.mem_map_of_mem hfile))

end MockForge.Writer

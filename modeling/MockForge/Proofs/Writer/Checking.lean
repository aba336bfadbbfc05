import MockForge.Proofs.FileSystem.Leading
import MockForge.Proofs.Writer.Staging

/-!
# Checking paths

A write looks at the paths of all files before it looks at anything else, and stops at the first one
with a flaw. A path without one leads below the base. Main statement: `paths_checked_first`.
-/

namespace MockForge.Writer

variable {base target : Path} {path text : String} {files earlier : List MockFile}
  {file : MockFile} {fault : WriteFault}

/-! ## Single paths -/

theorem isConfined_iff {p : Path} : isConfined p = true ↔ p.IsDownward := by
  rw [Path.isDownward_iff, isConfined, List.all_eq_true]
  constructor
  · intro h
    constructor <;> · intro hc; simpa using h _ hc
  · rintro ⟨hroot, hup⟩ component hc
    cases component with
    | name | here => rfl
    | root => exact absurd hc hroot
    | up => exact absurd hc hup

/-- A path is refused for being blank, or for leading up or starting at the root; all others are
accepted. -/
theorem resolve_eq (base : Path) (path : String) :
    Text.isBlank path = true ∧ resolve base path = .error (.invalidPath path) ∨
    Text.isBlank path = false ∧ ¬(⟨path⟩ : Path).IsDownward ∧
      resolve base path = .error (.invalidComponent path) ∨
    Text.isBlank path = false ∧ (⟨path⟩ : Path).IsDownward ∧
      resolve base path = .ok (base.join ⟨path⟩) := by
  unfold resolve
  cases hb : Text.isBlank path with
  | true => exact .inl ⟨rfl, rfl⟩
  | false =>
      rw [if_neg Bool.false_ne_true]
      by_cases hd : (⟨path⟩ : Path).IsDownward
      · exact .inr (.inr ⟨rfl, hd, if_pos (isConfined_iff.2 hd)⟩)
      · exact .inr (.inl ⟨rfl, hd, if_neg fun h => hd (isConfined_iff.1 h)⟩)

theorem resolve_eq_invalidPath_iff : resolve base path = .error (.invalidPath text) ↔
    Text.isBlank path = true ∧ text = path := by
  rcases resolve_eq base path with ⟨hb, h⟩ | ⟨hb, -, h⟩ | ⟨hb, -, h⟩
  · simp [h, hb, eq_comm]
  · simp [h, hb]
  · simp [h, hb]

theorem resolve_eq_invalidComponent_iff : resolve base path = .error (.invalidComponent text) ↔
    Text.isBlank path = false ∧ ¬(⟨path⟩ : Path).IsDownward ∧ text = path := by
  rcases resolve_eq base path with ⟨hb, h⟩ | ⟨hb, hd, h⟩ | ⟨hb, hd, h⟩
  · simp [h, hb]
  · simp [h, hb, hd, eq_comm]
  · simp [h, hd]

theorem resolve_eq_ok_iff : resolve base path = .ok target ↔
    Text.isBlank path = false ∧ (⟨path⟩ : Path).IsDownward ∧ target = base.join ⟨path⟩ := by
  rcases resolve_eq base path with ⟨hb, h⟩ | ⟨hb, hd, h⟩ | ⟨hb, hd, h⟩
  · simp [h, hb]
  · simp [h, hd]
  · simp [h, hb, hd, eq_comm]

/-! ## All paths of a mock -/

/-- What is wrong with the path of a file that comes after others: it is refused, or it is the path
of one of them. -/
inductive Flaw (base : Path) (earlier : List MockFile) (file : MockFile) : WriteFault → Prop where
  | refused {fault : WriteFault} (h : resolve base file.path = .error fault) :
      Flaw base earlier file fault
  | repeated {target : Path} {other : MockFile} (h : resolve base file.path = .ok target)
      (ho : other ∈ earlier) (hs : target.same (base.join ⟨other.path⟩) = true) :
      Flaw base earlier file (.duplicatePath file.path)

/-- Files of which none has a flaw: the paths of all are accepted, and no two are the same. -/
structure Flawless (base : Path) (files : List MockFile) : Prop where
  accepted : ∀ file ∈ files, ∃ target, resolve base file.path = .ok target
  apart : files.Pairwise fun earlier later =>
    ¬(base.join ⟨later.path⟩).same (base.join ⟨earlier.path⟩) = true

/-- What is wrong with the first of the files that has a flaw. -/
def FirstFlaw (base : Path) (files : List MockFile) (fault : WriteFault) : Prop :=
  ∃ earlier file later, files = earlier ++ file :: later ∧ Flawless base earlier ∧
    Flaw base earlier file fault

theorem targets_append (base : Path) (before : List Path) (first rest : List MockFile) :
    targets base before (first ++ rest) =
      targets base before first >>= fun paths => targets base paths rest := by
  induction first generalizing before with
  | nil => rfl
  | cons file first ih =>
      rw [List.cons_append, targets, targets]
      split
      · rfl
      · split
        · rfl
        · exact ih _

/-- The path of a file after others is flawless, or it has a flaw. -/
theorem flaw_cases (base : Path) (earlier : List MockFile) (file : MockFile) :
    (∃ target, resolve base file.path = .ok target ∧
      ∀ other ∈ earlier, ¬target.same (base.join ⟨other.path⟩) = true) ∨
    ∃ fault, Flaw base earlier file fault := by
  cases hr : resolve base file.path with
  | error fault => exact .inr ⟨fault, .refused hr⟩
  | ok target =>
      by_cases hs : ∃ other ∈ earlier, target.same (base.join ⟨other.path⟩) = true
      · obtain ⟨other, ho, hs⟩ := hs
        exact .inr ⟨_, .repeated hr ho hs⟩
      · exact .inl ⟨target, rfl, fun other ho h => hs ⟨other, ho, h⟩⟩

theorem any_same_iff (base target : Path) (earlier : List MockFile) :
    (earlier.map fun file => base.join ⟨file.path⟩).any target.same = true ↔
      ∃ other ∈ earlier, target.same (base.join ⟨other.path⟩) = true := by
  simp

theorem Flawless.targets_eq (h : Flawless base files) :
    targets base [] files = .ok (files.map fun file => base.join ⟨file.path⟩) := by
  induction files using List.reverseRecOn with
  | nil => rfl
  | append_singleton files file ih =>
      have hfiles : Flawless base files :=
        ⟨fun file hf => h.accepted file (List.mem_append_left _ hf),
          (List.pairwise_append.1 h.apart).1⟩
      obtain ⟨target, ht⟩ := h.accepted file (by simp)
      rw [targets_append, ih hfiles]
      show targets base _ [file] = _
      rw [targets, ht]
      dsimp only
      rw [if_neg, resolve_eq_ok ht, List.map_append]
      · rfl
      · rw [any_same_iff]
        rintro ⟨other, ho, hs⟩
        rw [resolve_eq_ok ht] at hs
        exact (List.pairwise_append.1 h.apart).2.2 other ho file (by simp) hs

theorem Flaw.targets_eq (h : Flaw base earlier file fault) (later : List MockFile) :
    targets base (earlier.map fun file => base.join ⟨file.path⟩) (file :: later) =
      .error fault := by
  cases h with
  | refused hr => rw [targets, hr]
  | repeated hr ho hs =>
      rw [targets, hr]
      exact if_pos ((any_same_iff _ _ _).2 ⟨_, ho, hs⟩)

/-- The first flaw is what the check of all paths ends with. -/
theorem FirstFlaw.targets_eq (h : FirstFlaw base files fault) :
    targets base [] files = .error fault := by
  obtain ⟨earlier, file, later, rfl, hearlier, hflaw⟩ := h
  rw [targets_append, hearlier.targets_eq]
  exact hflaw.targets_eq later

theorem flawless_or_firstFlaw (base : Path) (files : List MockFile) :
    Flawless base files ∨ ∃ fault, FirstFlaw base files fault := by
  induction files using List.reverseRecOn with
  | nil => exact .inl ⟨by simp, .nil⟩
  | append_singleton files file ih =>
      rcases ih with h | ⟨fault, earlier, other, later, rfl, hflaw⟩
      · rcases flaw_cases base files file with ⟨target, ht, ha⟩ | ⟨fault, hflaw⟩
        · refine .inl ⟨?_, List.pairwise_append.2 ⟨h.apart, by simp, ?_⟩⟩
          · intro other ho
            rcases List.mem_append.1 ho with ho | ho
            · exact h.accepted other ho
            · exact ⟨target, List.mem_singleton.1 ho ▸ ht⟩
          · intro other ho last hl
            rw [List.mem_singleton.1 hl, ← resolve_eq_ok ht]
            exact ha other ho
        · exact .inr ⟨fault, files, file, [], rfl, h, hflaw⟩
      · exact .inr ⟨fault, earlier, other, later ++ [file], by simp, hflaw⟩

theorem Flawless.not_firstFlaw (h : Flawless base files) : ¬FirstFlaw base files fault := by
  intro hflaw
  have htargets := hflaw.targets_eq
  rw [h.targets_eq] at htargets
  cases htargets

/-- A write of a mock with a flaw does nothing but to tell it. -/
theorem FirstFlaw.write_eq {writer : Writer} {mock : Mock}
    (h : FirstFlaw writer.base mock.files fault) : writer.write mock = pure (.error fault) := by
  rw [write, h.targets_eq]

/-- Nothing is wrong with the paths of a mock that is written. -/
theorem flawless_of_write_ok {writer : Writer} {mock : Mock} {fs : FileSystem}
    {paths : List Path} (h : (writer.write mock fs).value = .ok paths) :
    Flawless writer.base mock.files := by
  rcases flawless_or_firstFlaw writer.base mock.files with hflawless | ⟨fault, hflaw⟩
  · exact hflawless
  · rw [hflaw.write_eq] at h
    cases h

theorem isBlank_eq_false_iff {path : String} :
    Text.isBlank path = false ↔ ∃ c ∈ path.toList, Text.isBlankChar c = false := by
  simp [Text.isBlank]

theorem isDownward_iff_splitOn {path : String} : (⟨path⟩ : Path).IsDownward ↔
    path.toList.head? ≠ some '/' ∧ ['.', '.'] ∉ path.toList.splitOn '/' := by
  rw [← Path.pieces_eq_splitOn]
  exact ⟨fun h => ⟨h.plain, h.noUp⟩, fun h => ⟨h.1, h.2⟩⟩

/-- A path is refused when it is blank, and otherwise when it starts with a slash or leads up
between two slashes. All other paths are accepted; below the base they go on by names only, and so
they lead to nothing above the base or beside it. Where a path of a mock is refused, a write tells
what is wrong with the first file that has a flaw; it does not look at the file system. -/
theorem paths_checked_first (base : Path) (path : String) (host : Host) (mock : Mock) :
    (∀ text, resolve base path = .error (.invalidPath text) ↔
      (∀ c ∈ path.toList, Text.isBlankChar c = true) ∧ text = path) ∧
    (∀ text, resolve base path = .error (.invalidComponent text) ↔
      (∃ c ∈ path.toList, Text.isBlankChar c = false) ∧
        (path.toList.head? = some '/' ∨ ['.', '.'] ∈ path.toList.splitOn '/') ∧ text = path) ∧
    (∀ target, resolve base path = .ok target ↔
      (∃ c ∈ path.toList, Text.isBlankChar c = false) ∧
        (path.toList.head? ≠ some '/' ∧ ['.', '.'] ∉ path.toList.splitOn '/') ∧
        target = base.join ⟨path⟩) ∧
    (∀ target, resolve base path = .ok target →
      target.steps = base.steps ++ (⟨path⟩ : Path).steps ∧
      (∃ names : List String, (⟨path⟩ : Path).steps = names.map .name) ∧
      ∀ fs place location, FileSystem.directory fs base = .ok place →
        fs.locate target = .ok location → place <:+ location) ∧
    ((∃ file ∈ mock.files, ∃ fault, resolve base file.path = .error fault) →
      ∃ fault, FirstFlaw base mock.files fault ∧
        write ⟨base, host⟩ mock = pure (.error fault)) := by
  refine ⟨fun text => ?_, fun text => ?_, fun target => ?_, fun target h => ?_, ?_⟩
  · rw [resolve_eq_invalidPath_iff, Text.isBlank, List.all_eq_true]
  · rw [resolve_eq_invalidComponent_iff, isBlank_eq_false_iff, isDownward_iff_splitOn,
      not_and_or, not_not, not_not]
  · rw [resolve_eq_ok_iff, isBlank_eq_false_iff, isDownward_iff_splitOn]
  · obtain ⟨-, hd, rfl⟩ := resolve_eq_ok_iff.1 h
    refine ⟨Path.steps_join hd.plain, ⟨_, hd.steps_eq⟩, fun fs place location hp hl => ?_⟩
    rw [FileSystem.locate_eq_leadsTo hl, FileSystem.directory_eq_leadsTo hp,
      FileSystem.leadsTo_join hd]
    exact List.suffix_append _ _
  · rintro ⟨file, hf, fault, hr⟩
    rcases flawless_or_firstFlaw base mock.files with h | ⟨first, h⟩
    · obtain ⟨target, ht⟩ := h.accepted file hf
      rw [hr] at ht
      cases ht
    · exact ⟨first, h, FirstFlaw.write_eq h⟩

/-- A file that repeats another one comes before one whose path leads up. -/
theorem repeated_before_escape :
    resolve ⟨"out"⟩ "src/./uart.h" = .ok ⟨"out/src/./uart.h"⟩ ∧
    (⟨"out/src/./uart.h"⟩ : Path).steps = [.name "out", .name "src", .name "uart.h"] ∧
    write ⟨⟨"out"⟩, .counting⟩
        ⟨⟨"uart"⟩, [⟨"uart.h", "a"⟩, ⟨"./uart.h", "b"⟩, ⟨"../uart.c", "c"⟩]⟩ =
      pure (.error (.duplicatePath "./uart.h")) := by
  obtain ⟨-, -, -, hbelow, hfirst⟩ := paths_checked_first ⟨"out"⟩ "src/./uart.h" .counting
    ⟨⟨"uart"⟩, [⟨"uart.h", "a"⟩, ⟨"./uart.h", "b"⟩, ⟨"../uart.c", "c"⟩]⟩
  have hok : resolve ⟨"out"⟩ "src/./uart.h" = .ok ⟨"out/src/./uart.h"⟩ := by decide +kernel
  obtain ⟨fault, hflaw, hwrite⟩ := hfirst ⟨⟨"../uart.c", "c"⟩, by simp, _, rfl⟩
  have htargets : targets ⟨"out"⟩ []
      [⟨"uart.h", "a"⟩, ⟨"./uart.h", "b"⟩, ⟨"../uart.c", "c"⟩] =
      .error (.duplicatePath "./uart.h") := by decide +kernel
  obtain rfl : fault = .duplicatePath "./uart.h" := by
    simpa [htargets, eq_comm] using hflaw.targets_eq
  exact ⟨hok, (hbelow _ hok).1.trans (by decide +kernel), hwrite⟩

end MockForge.Writer

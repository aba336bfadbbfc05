import MockForge.Mock
import MockForge.Proofs.Json.RoundTrip

/-!
# Mocks and their documents

A mock that is written as a document and read again is the mock that it was, whatever its name and
whatever the paths and texts of its files. So it has as many files, in the same order, and the first
file with a path is the same. Main statement: `restored_whole`.
-/

namespace MockForge

open Json (Reads)
open Json.Record (Fills fills_field fills_text)

/-! ## Files -/

namespace MockFile

/-- A file is read of its object. Both members are always there, in the order of the fields. -/
theorem reads_toJson (file : MockFile) : Reads record.reader file.toJson.compact file := by
  have hpath : Fills record {} [("path", .text file.path)] ⟨some file.path, none⟩ :=
    fills_text (fun s => Draft.mk (some s) none) rfl rfl rfl file.path
  have hcontent : Fills record ⟨some file.path, none⟩ [("content", .text file.content)]
      ⟨some file.path, some file.content⟩ :=
    fills_text (fun s => Draft.mk _ (some s)) rfl rfl rfl file.content
  exact Json.Record.reads_object (hpath.append hcontent) rfl

theorem reads_list (files : List MockFile) :
    Reads (Json.list record.reader) (Json.Value.list (files.map toJson)).compact files := by
  have h := Json.reads_list fun (file : MockFile) (_ : file ∈ files) => file.reads_toJson
  rwa [List.map_id'] at h

end MockFile

/-! ## Mocks -/

namespace Mock

variable {mock : Mock} {path : String} {file : MockFile}

/-- A file is the first one of some files that has a path. -/
def IsFirstAt (path : String) (files : List MockFile) (file : MockFile) : Prop :=
  ∃ before after, files = before ++ file :: after ∧ file.path = path ∧
    ∀ earlier ∈ before, earlier.path ≠ path

theorem file?_eq_some_iff : mock.file? path = some file ↔ IsFirstAt path mock.files file := by
  simp only [file?, List.find?_eq_some_iff_append, decide_eq_true_eq, Bool.not_eq_true',
    decide_eq_false_iff_not, IsFirstAt]
  constructor
  · rintro ⟨hpath, before, after, hfiles, hbefore⟩
    exact ⟨before, after, hfiles, hpath, hbefore⟩
  · rintro ⟨before, after, hfiles, hpath, hbefore⟩
    exact ⟨hpath, before, after, hfiles, hbefore⟩

theorem file?_eq_none_iff : mock.file? path = none ↔ ∀ file ∈ mock.files, file.path ≠ path := by
  simp [file?]

theorem reads_toJson (mock : Mock) : Reads record.reader mock.toJson.compact mock := by
  have hname : Fills record {} [("mock_name", .text mock.name.text)]
      ⟨some mock.name.text, none⟩ :=
    fills_text (fun s => Draft.mk (some s) none) rfl rfl rfl mock.name.text
  have hfiles : Fills record ⟨some mock.name.text, none⟩
      [("files", .list (mock.files.map MockFile.toJson))]
      ⟨some mock.name.text, some mock.files⟩ :=
    fills_field rfl rfl ((MockFile.reads_list mock.files).map fun files => Draft.mk _ (some files))
  exact Json.Record.reads_object (hname.append hfiles) rfl

theorem ofJson_toJson (mock : Mock) : ofJson mock.toJson.compactText = .ok mock :=
  Json.document_of_reads mock.reads_toJson

/-- The document of a mock is read as this mock, and no other mock has the same document. What is
read has as many files, with the same paths in the same order, and gives the same answer for every
path: the first file that goes by it, or none when no file of the mock does. -/
theorem restored_whole (mock : Mock) :
    (∃ restored : Mock, ofJson mock.toJson.compactText = .ok restored ∧
      restored = mock ∧
      restored.files.length = mock.files.length ∧
      restored.files.map MockFile.path = mock.files.map MockFile.path ∧
      ∀ path,
        restored.file? path = mock.file? path ∧
        (∀ file, restored.file? path = some file ↔ IsFirstAt path mock.files file) ∧
        (restored.file? path = none ↔ ∀ file ∈ mock.files, file.path ≠ path)) ∧
    ∀ other : Mock, other.toJson.compactText = mock.toJson.compactText ↔ other = mock := by
  refine ⟨⟨mock, ofJson_toJson mock, rfl, rfl, rfl, fun path => ?_⟩, fun other => ?_⟩
  · exact ⟨rfl, fun file => file?_eq_some_iff, file?_eq_none_iff⟩
  · constructor
    · intro h
      have hread := ofJson_toJson other
      rw [h, ofJson_toJson mock] at hread
      exact (Except.ok.inj hread).symm
    · intro h
      rw [h]

/-- A mock with two files that go by one path. -/
def twofold : Mock := ⟨⟨"Mockuart"⟩, [⟨"uart.h", "\t\"a\"\n"⟩, ⟨"uart.h", ""⟩]⟩

example : (ofJson twofold.toJson.compactText).toOption.bind (·.file? "uart.h") =
    some ⟨"uart.h", "\t\"a\"\n"⟩ := by decide +kernel

end Mock

end MockForge

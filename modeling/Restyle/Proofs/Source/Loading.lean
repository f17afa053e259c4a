import Mathlib.Tactic.MkIffOfInductiveProp
import Restyle.Proofs.Source.Session

/-!
Complaints about files. They are told apart by their words, and the words of the path are among
them: a file that cannot be decoded passes for a missing one if its path says so.
-/

namespace Restyle.Session

variable {d : Disk} {p : Disk.Path} {bytes : List UInt8}

/-- Loading a file ends with a complaint of a kind. -/
def Complains [Dialect] (s : Session) (d : Disk) (p : Disk.Path) (kind : Complaint) : Prop :=
  ∃ message, (s.loadFile d p).2 = some (.complaint kind message)

/-- What is promised about loading a file: every kind of complaint has its own cause. -/
@[mk_iff] structure Documented [Dialect] (s : Session) (d : Disk) (p : Disk.Path) : Prop where
  notFound : s.Complains d p .notFound ↔ d.exists? p = .ok false
  encoding : s.Complains d p .encoding ↔
    ∃ bytes fault, d.read p = .ok bytes ∧ Text.decode bytes = .error fault
  grammar : s.Complains d p .grammar ↔ ∃ bytes text, d.read p = .ok bytes ∧
    Text.decode bytes = .ok text ∧ Syntax.parse? (Text.unifyNewlines text) = none
  none : (s.loadFile d p).2 = none ↔ ∃ bytes text tree, d.read p = .ok bytes ∧
    Text.decode bytes = .ok text ∧ Syntax.parse? (Text.unifyNewlines text) = some tree

/-- A path with the words for a missing file. -/
def namesNotFound (p : Disk.Path) : Bool := Text.occursIn "not found".toList p.text.toList

/-! ### The words of complaints -/

theorem complaint_missing (p : Disk.Path) :
    complaint (Source.FileFault.message (.missing p)) = .notFound := by
  have hmessage : Source.FileFault.message (.missing p) = "File not found: " ++ p.text := rfl
  rw [hmessage, complaint, String.toList_append]
  rfl

/-- No words go from the start of the message over into the path. -/
theorem complaint_undecodable (p : Disk.Path) :
    complaint (Source.FileFault.message (.undecodable p)) =
      if namesNotFound p then .notFound else .encoding := by
  have hmessage : Source.FileFault.message (.undecodable p) =
      "File encoding not supported: " ++ p.text := rfl
  rw [hmessage, complaint, String.toList_append]
  rfl

/-- Nor do any go over into the words about a text that is no source, and these have none. -/
theorem complaint_malformed [Dialect] (text : List Char) :
    complaint (Source.FileFault.message (.malformed (Dialect.complaint text))) = .grammar := by
  have hmessage : Source.FileFault.message (.malformed (Dialect.complaint text)) =
      "Syntax error in source code: " ++ Dialect.complaint text := rfl
  obtain ⟨hmissing, hencoding⟩ := Dialect.complaint_apart text
  have hwords : complaint ("Syntax error in source code: " ++ Dialect.complaint text) =
      if Text.occursIn "not found".toList (Dialect.complaint text).toList then .notFound
      else if Text.occursIn "encoding".toList (Dialect.complaint text).toList then .encoding
      else .grammar := by
    rw [complaint, String.toList_append]
    rfl
  rw [hmessage, hwords, hmissing, hencoding]
  rfl

/-! ### Loading -/

theorem exists?_eq_false_iff (hnull : p.hasNull = false) : d.exists? p = .ok false ↔
    d.node p = .error .notFound ∨ d.node p = .error .notDirectory := by
  rw [Disk.exists?, Disk.ask, hnull, if_neg Bool.false_ne_true]
  split <;> simp_all

theorem documented_missing_iff [Dialect] (s : Session) (hnull : p.hasNull = false)
    (h : d.exists? p = .ok false) : s.Documented d p ↔ d.node p ≠ .error .notDirectory := by
  rcases (exists?_eq_false_iff hnull).mp h with hnode | hnode
  · have hread : d.read p = .error (Disk.refuse p .notFound) := by rw [Disk.read, hnode]
    have hfile : Source.ofFile d p = .error (.missing p) :=
      Source.ofFile_of_error (by simp [Source.readText, hread, Disk.refuse])
    simp [documented_iff, Complains, loadFile_of_error hfile, faultOf, hread, h, hnode,
      complaint_missing]
  · have hread : d.read p = .error (Disk.refuse p .notDirectory) := by rw [Disk.read, hnode]
    have hfile : Source.ofFile d p = .error (.refused (Disk.refuse p .notDirectory)) :=
      Source.ofFile_of_error (by simp [Source.readText, hread, Disk.refuse])
    simp [documented_iff, Complains, loadFile_of_error hfile, faultOf, h, hnode]

theorem documented_readable_iff [Dialect] (s : Session) (hexists : d.exists? p ≠ .ok false)
    (hread : d.read p = .ok bytes) : s.Documented d p ↔
      ¬ (namesNotFound p = true ∧ ∃ fault, Text.decode bytes = .error fault) := by
  cases hdecode : Text.decode bytes with
  | error fault =>
    have hfile : Source.ofFile d p = .error (.undecodable p) :=
      Source.ofFile_of_error (by simp [Source.readText, hread, hdecode])
    cases hnamed : namesNotFound p <;>
      simp [documented_iff, Complains, loadFile_of_error hfile, faultOf, hread, hexists, hdecode,
        complaint_undecodable, hnamed]
  | ok text =>
    have htext : Source.readText d p = .ok (Text.unifyNewlines text) := by
      simp [Source.readText, hread, hdecode]
    cases hparse : Syntax.parse? (Text.unifyNewlines text) with
    | none =>
      have hfile := Source.ofFile_of_not_parse htext hparse
      simp [documented_iff, Complains, loadFile_of_error hfile, faultOf, hread, hexists, hdecode,
        hparse, complaint_malformed]
    | some tree =>
      have hfile := Source.ofFile_of_parse htext hparse
      simp [documented_iff, Complains, loadFile_of_ok hfile, hread, hexists, hdecode, hparse]

/-- Loading a file that is missing or can be read ends as promised unless its path leads through
another file, or it cannot be decoded and has the words for a missing file in its path. -/
theorem loadFile_documented_iff [Dialect] (s : Session) (hnull : p.hasNull = false)
    (h : d.exists? p = .ok false ∨ ∃ bytes, d.read p = .ok bytes) :
    s.Documented d p ↔ d.node p ≠ .error .notDirectory ∧ ¬ (namesNotFound p = true ∧
      ∃ bytes fault, d.read p = .ok bytes ∧ Text.decode bytes = .error fault) := by
  have hread : d.exists? p = .ok false → ∀ bytes, d.read p ≠ .ok bytes := by
    rw [exists?_eq_false_iff hnull]
    rintro (hnode | hnode) <;> simp [Disk.read, hnode]
  by_cases hexists : d.exists? p = .ok false
  · simp [documented_missing_iff s hnull hexists, hread hexists]
  · obtain ⟨bytes, hbytes⟩ := h.resolve_left hexists
    have hnode : d.node p ≠ .error .notDirectory := fun hnode =>
      hexists ((exists?_eq_false_iff hnull).mpr (.inr hnode))
    simp [documented_readable_iff s hexists hbytes, hbytes, hnode]

def scrambled (name : String) : Disk :=
  ⟨.dir .directory [(name, .file .file [255])], false, some []⟩

theorem loadFile_documented_iff_sample :
    start.Documented (scrambled "found.py") ⟨"", ["found.py"]⟩ := by
  refine (loadFile_documented_iff start (by decide) (.inr ⟨[255], rfl⟩)).mpr ⟨?_, ?_⟩
  · intro h
    cases h
  · rintro ⟨hnamed, -⟩
    exact absurd hnamed (by decide)

/-- A file that is there and is called missing. -/
theorem present_not_found :
    (scrambled "not found.py").read ⟨"", ["not found.py"]⟩ = .ok [255] ∧
      ¬ start.Documented (scrambled "not found.py") ⟨"", ["not found.py"]⟩ := by
  refine ⟨rfl, fun h => ?_⟩
  have hmissing := h.notFound.mp ⟨"File encoding not supported: not found.py", by decide +kernel⟩
  cases hmissing

end Restyle.Session

import Restyle.Proofs.Selection.Scan
import Restyle.Proofs.Symbol.Analysis

/-!
Files contribute to an analysis independently of each other. The main statement is that an analysis
knows what the analyses of the single files know, one after the other, that a file without a source
adds nothing and can be left out, and that what a file adds depends on its own content alone,
whatever was read before it.
-/

namespace Restyle.Symbol

open Disk (Path)
open Syntax

/-- What is known about a project that has one file only. -/
def alone [Dialect] (d : Disk) (root p : Path) : SymbolMap :=
  (SymbolMap.empty.analyze d root [p]).map

/-- A map knows what other maps know, one after the other. -/
structure Joins (ms : List SymbolMap) (m : SymbolMap) : Prop where
  definitions : ∀ x, Index.all m.definitions x = ms.flatMap fun k => Index.all k.definitions x
  usages : ∀ x, Index.all m.usages x = ms.flatMap fun k => Index.all k.usages x
  imports : m.imports = ms.flatMap (·.imports)

/-! ### Files without a source -/

/-- No source can be read from a path. -/
inductive Unusable [Dialect] (d : Disk) (p : Path) : Prop
  | missing (r : Disk.Refusal) (h : d.read p = .error r) (hreason : r.reason = .notFound)
  | unreadable (r : Disk.Refusal) (h : d.read p = .error r) (hreason : r.reason ≠ .notFound)
  | undecodable (bytes : List UInt8) (e : Text.Utf8Fault) (h : d.read p = .ok bytes)
      (hdecode : Text.decode bytes = .error e)
  | malformed (bytes : List UInt8) (text : List Char) (h : d.read p = .ok bytes)
      (hdecode : Text.decode bytes = .ok text) (hparse : parse? (Text.unifyNewlines text) = none)

section Files

variable [Dialect] {d : Disk} {root p : Path} {paths : List Path}

theorem Unusable.exists_fault (h : Unusable d p) : ∃ f, Source.ofFile d p = .error f := by
  cases h with
  | missing r h | unreadable r h => exact ⟨_, Source.ofFile_of_error (by rw [Source.readText, h])⟩
  | undecodable bytes e h hdecode =>
    exact ⟨_, Source.ofFile_of_error (by simp only [Source.readText, h, hdecode]; rfl)⟩
  | malformed bytes text h hdecode hparse =>
    have htext : Source.readText d p = .ok (Text.unifyNewlines text) := by
      simp only [Source.readText, h, hdecode]
    exact ⟨_, Source.ofFile_of_not_parse htext hparse⟩

theorem Unusable.contents (h : Unusable d p) :
    definitionsOf d p = [] ∧ usagesOf d p = [] ∧ importsOf d p = [] := by
  obtain ⟨f, hf⟩ := h.exists_fault
  unfold definitionsOf usagesOf importsOf
  rw [hf]
  exact ⟨rfl, rfl, rfl⟩

/-! ### Files with others -/

theorem adds_analyze_empty (hbelow : ∀ p ∈ paths, p.IsBelow root) :
    Adds (paths.flatMap (definitionsOf d)) (paths.flatMap (usagesOf d))
      (paths.flatMap (importsOf d)) .empty (SymbolMap.empty.analyze d root paths).map :=
  adds_analyze ((fault_analyze_iff .empty d root paths).mpr hbelow)

theorem adds_alone (hp : p.IsBelow root) :
    Adds (definitionsOf d p) (usagesOf d p) (importsOf d p) .empty (alone d root p) := by
  have hadds := adds_analyze_empty (d := d) (List.forall_mem_singleton.mpr hp)
  simp only [List.flatMap_singleton] at hadds
  exact hadds

theorem joins_analyze (hbelow : ∀ p ∈ paths, p.IsBelow root) :
    Joins (paths.map (alone d root)) (SymbolMap.empty.analyze d root paths).map := by
  have hall := adds_analyze_empty (d := d) hbelow
  constructor
  · intro x
    rw [hall.definitions, List.filter_flatMap, List.flatMap_map]
    refine List.flatMap_congr fun p hp => ?_
    rw [(adds_alone (hbelow p hp)).definitions]
    rfl
  · intro x
    rw [hall.usages, List.filter_flatMap, List.flatMap_map]
    refine List.flatMap_congr fun p hp => ?_
    rw [(adds_alone (hbelow p hp)).usages]
    rfl
  · rw [hall.imports, List.flatMap_map]
    refine List.flatMap_congr fun p hp => ?_
    rw [(adds_alone (hbelow p hp)).imports]
    rfl

theorem joins_nil_alone (hp : p.IsBelow root) (h : Unusable d p) :
    Joins [] (alone d root p) := by
  obtain ⟨hdefinitions, husages, himports⟩ := h.contents
  have hadds := adds_alone (d := d) hp
  rw [hdefinitions, husages, himports] at hadds
  exact ⟨hadds.definitions, hadds.usages, hadds.imports⟩

/-- Without a file that has no source an analysis knows the same. -/
theorem joins_without {before after : List Path}
    (hbelow : ∀ q ∈ before ++ p :: after, q.IsBelow root) (h : Unusable d p) :
    Joins [(SymbolMap.empty.analyze d root (before ++ after)).map]
      (SymbolMap.empty.analyze d root (before ++ p :: after)).map := by
  have hothers : ∀ q ∈ before ++ after, q.IsBelow root := by
    intro q hq
    exact hbelow q (((List.sublist_cons_self p after).append_left before).subset hq)
  have hnothing := joins_nil_alone (hbelow p (by simp)) h
  have hwith := joins_analyze (d := d) hbelow
  have hwithout := joins_analyze (d := d) hothers
  constructor
  · intro x
    rw [hwith.definitions, List.flatMap_singleton, hwithout.definitions]
    simp [hnothing.definitions]
  · intro x
    rw [hwith.usages, List.flatMap_singleton, hwithout.usages]
    simp [hnothing.usages]
  · rw [hwith.imports, List.flatMap_singleton, hwithout.imports]
    simp [hnothing.imports]

/-! ### What a file adds depends on -/

/-- What is known about one file follows from the content of that file. -/
theorem alone_of_read_eq {d' : Disk} (h : d'.read p = d.read p) (root : Path) :
    alone d' root p = alone d root p := by
  have htext : Source.readText d' p = Source.readText d p := by
    unfold Source.readText
    rw [h]
  have hsource : Source.ofFile d' p = Source.ofFile d p := by
    unfold Source.ofFile Source.readFile
    rw [htext]
  have hdefinitions (s : Session) : definitionsFrom s d' p = definitionsFrom s d p := by
    cases h : Source.ofFile d p with
    | ok source => rw [definitionsFrom_of_ok s h, definitionsFrom_of_ok s (hsource.trans h)]
    | error f => rw [definitionsFrom_of_error s h, definitionsFrom_of_error s (hsource.trans h)]
  have htree : treeIn? d' p = treeIn? d p := by
    unfold treeIn?
    rw [htext]
  have hnames (m : SymbolMap) : SymbolMap.addNames d' m p = SymbolMap.addNames d m p := by
    unfold SymbolMap.addNames importsIn
    rw [hdefinitions, htree]
  have huses (m : SymbolMap) : SymbolMap.addUses d' m p = SymbolMap.addUses d m p := by
    unfold SymbolMap.addUses usagesIn
    rw [htree]
  simp only [alone, SymbolMap.analyze, SymbolMap.overPaths, List.foldl_cons, List.foldl_nil,
    hnames, huses]

/-- For every list of files below the root an analysis comes to its end and knows what the single
files contribute, one after the other. A file without a source contributes nothing and makes no
difference to the others. What a file contributes follows from its own content, and a session that
has read other files, or has failed to, finds the same in it. -/
theorem files_contribute_alone (d : Disk) (root : Path) (paths : List Path)
    (hbelow : ∀ p ∈ paths, p.IsBelow root) :
    (SymbolMap.empty.analyze d root paths).fault = none ∧
      Joins (paths.map (alone d root)) (SymbolMap.empty.analyze d root paths).map ∧
      (∀ p ∈ paths, Unusable d p → Joins [] (alone d root p)) ∧
      (∀ before p after, paths = before ++ p :: after → Unusable d p →
        Joins [(SymbolMap.empty.analyze d root (before ++ after)).map]
          (SymbolMap.empty.analyze d root paths).map) ∧
      (∀ d' p, d'.read p = d.read p → alone d' root p = alone d root p) ∧
      ∀ s p, (definitionsFrom s d p).2 = definitionsIn d p := by
  refine ⟨(fault_analyze_iff .empty d root paths).mpr hbelow, joins_analyze hbelow,
    fun p hp => joins_nil_alone (hbelow p hp), ?_, fun d' p h => alone_of_read_eq h root,
    fun s p => definitionsFrom_eq_definitionsIn s d p⟩
  rintro before p after rfl
  exact joins_without hbelow

end Files

/-- Two sources, and between them a directory, a file that is no text and one that is no source. -/
def mixedProject : Disk :=
  ⟨.dir .directory
    [("names.py", .file .file (Text.encode "def f(): pass\n".toList)),
      ("pack.py", .dir .directory []),
      ("bytes.py", .file .file [255]),
      ("open.py", .file .file (Text.encode "(".toList)),
      ("uses.py", .file .file (Text.encode "import names\nnames.f()\n".toList))], false, some []⟩

/-- The files without a source, the last of which is missing. -/
def brokenPaths : List Path :=
  [⟨"", ["pack.py"]⟩, ⟨"", ["bytes.py"]⟩, ⟨"", ["open.py"]⟩, ⟨"", ["gone.py"]⟩]

def mixedPaths : List Path := ⟨"", ["names.py"]⟩ :: brokenPaths ++ [⟨"", ["uses.py"]⟩]

theorem unusable_brokenPaths : ∀ p ∈ brokenPaths, Unusable mixedProject p := by
  simp only [brokenPaths, List.forall_mem_cons]
  have hbytes : (Text.decode [255]).toOption.isNone = true := by decide +kernel
  obtain ⟨e, he⟩ := exists_error_of_isNone hbytes
  refine ⟨?_, ?_, ?_, ?_, by simp⟩
  · exact .unreadable _ rfl (by decide)
  · exact .undecodable [255] e rfl he
  · exact .malformed _ "(".toList rfl (by decide +kernel) (by decide +kernel)
  · exact .missing _ rfl (by decide)

theorem files_contribute_alone_sample :
    (∀ p ∈ mixedPaths, p.IsBelow ⟨"", []⟩) ∧
      Joins (mixedPaths.map (alone mixedProject ⟨"", []⟩))
        (SymbolMap.empty.analyze mixedProject ⟨"", []⟩ mixedPaths).map ∧
      (∀ p ∈ brokenPaths, Unusable mixedProject p ∧ Joins [] (alone mixedProject ⟨"", []⟩ p)) ∧
      (Index.all (alone mixedProject ⟨"", []⟩ ⟨"", ["uses.py"]⟩).usages "f").length = 2 := by
  have hbelow : ∀ p ∈ mixedPaths, p.IsBelow ⟨"", []⟩ := by
    simp [mixedPaths, brokenPaths, Path.IsBelow]
  have hsubset : ∀ p ∈ brokenPaths, p ∈ mixedPaths := by decide
  obtain ⟨-, hjoins, hnothing, -⟩ := files_contribute_alone mixedProject ⟨"", []⟩ mixedPaths hbelow
  refine ⟨hbelow, hjoins, fun p hp => ?_, by decide +kernel⟩
  have hunusable := unusable_brokenPaths p hp
  exact ⟨hunusable, hnothing p (hsubset p hp) hunusable⟩

end Restyle.Symbol

import Restyle.Proofs.Table
import Restyle.Proofs.Text.Splitting
import Restyle.Symbol.ModuleName

/-!
The two tables of modules. The file of a module always has that module, since a later file with the
same module takes the place of an earlier one. The module of a file leads back to it unless another
file has the same module, and for names without dots that happens only to a package and a module
with the name of the package.
-/

namespace Restyle

namespace Symbol

open Disk (Path)

/-- A source file below the root: the directories that lead to it, and its name without the
extension. -/
structure SourceFile where
  dirs : List String
  stem : String

namespace SourceFile

variable {f g : SourceFile}

def names (f : SourceFile) : List String := f.dirs ++ [f.stem ++ ".py"]

def path (root : Path) (f : SourceFile) : Path := root ++ ⟨"", f.names⟩

def module (f : SourceFile) : String := dottedName f.names

/-- No directory has the empty name, and the only dot is the one of the extension. -/
structure Plain (f : SourceFile) : Prop where
  ne_empty : "" ∉ f.dirs
  dirs : ∀ d ∈ f.dirs, '.' ∉ d.toList
  stem : '.' ∉ f.stem.toList

/-- The initial file of the package with the name of a file. -/
def package (f : SourceFile) : SourceFile := ⟨f.dirs ++ [f.stem], initialStem⟩

/-- A file and the package with its name. An initial file is named for the directory it is in, so
it has such a package only in the root. -/
def Clash (f g : SourceFile) : Prop := g = f.package ∧ (f.stem = initialStem → f.dirs = [])

/-! ### Names of modules -/

theorem stem_names (f : SourceFile) :
    Path.stem ⟨"", f.names⟩ = if f.stem = "" then ".py" else f.stem := by
  have hname : Path.name ⟨"", f.names⟩ = f.stem ++ ".py" := by simp [Path.name, names]
  have htail : (f.stem ++ ".py").toList.reverse.takeWhile (· != '.') = ['y', 'p'] := by simp
  have hlength : (f.stem ++ ".py").length = f.stem.toList.length + 3 := by
    rw [String.length_append, String.length_toList]
    rfl
  rw [Path.stem, hname]
  simp only [Path.splitName, htail, hlength]
  by_cases hempty : f.stem = "" <;> simp [hempty]

def words (f : SourceFile) : List String :=
  if f.stem = "" then f.dirs ++ [""] ++ ["py"]
  else if f.stem ≠ initialStem then f.dirs ++ [f.stem]
  else if f.dirs = [] then [initialStem] else f.dirs

theorem module_eq (f : SourceFile) : f.module = String.intercalate "." f.words := by
  have hdirs : f.names.dropLast = f.dirs := by simp [names]
  have hlast : String.intercalate "." (f.dirs ++ [".py"]) =
      String.intercalate "." (f.dirs ++ [""] ++ ["py"]) := by
    rw [← String.toList_inj, String.toList_intercalate, String.toList_intercalate]
    induction f.dirs with
    | nil => rfl
    | cons d dirs ih => simpa [List.intercalate_cons_of_ne_nil] using ih
  rw [module, dottedName, stem_names, hdirs, words]
  by_cases hempty : f.stem = ""
  · simp [hempty, hlast, initialStem]
  · by_cases hinitial : f.stem = initialStem
    · by_cases hroot : f.dirs = [] <;> simp [hinitial, hroot, initialStem]
    · simp [hempty, hinitial]

/-- The words can be read off the name. -/
theorem Plain.splitOn_module (h : f.Plain) :
    Text.splitOn '.' f.module.toList = f.words.map String.toList := by
  have hplain : ∀ w ∈ ["", "py", initialStem], '.' ∉ w.toList := by decide
  have hwords : f.words ≠ [] ∧ ∀ w ∈ f.words, '.' ∉ w.toList := by
    have hdirs := h.dirs
    have hstem := h.stem
    unfold words
    grind [List.append_eq_nil_iff]
  rw [module_eq, String.toList_intercalate]
  exact Text.splitOn_intercalate (by simpa using hwords.1) (by simpa using hwords.2)

theorem module_eq_iff (hf : f.Plain) (hg : g.Plain) :
    f.module = g.module ↔ f = g ∨ Clash f g ∨ Clash g f := by
  have hwords : f.module = g.module ↔ f.words = g.words := by
    refine ⟨fun h => ?_, fun h => by rw [module_eq, module_eq, h]⟩
    have hmap := hf.splitOn_module
    rw [h, hg.splitOn_module] at hmap
    exact ((List.map_inj_right fun _ _ => String.toList_inj.mp).mp hmap).symm
  have hends (xs ys : List String) (x y : String) : xs ++ [x] = ys ++ [y] ↔ xs = ys ∧ x = y := by
    simp
  have hdirs := hf.ne_empty
  have hdirs' := hg.ne_empty
  rw [hwords]
  -- the cases of `words` for the two files; the last words of the lists are compared
  obtain ⟨dirs, stem⟩ := f
  obtain ⟨dirs', stem'⟩ := g
  grind [Clash, package, words, initialStem]

/-! ### Tables -/

theorem moduleTables_eq (root : Path) (fs : List SourceFile) :
    moduleTables root (fs.map (path root)) =
      .ok (.ofList (fs.map fun f => (f.path root, f.module)),
        .ofList (fs.map fun f => (f.module, f.path root))) := by
  have hname (f : SourceFile) : moduleName root (f.path root) = .ok f.module := by
    have hpath : f.path root = ⟨root.root, root.names ++ f.names⟩ := rfl
    have hbelow : (f.path root).relativeTo root = .ok f.names := by simp [hpath, Path.relativeTo]
    rw [moduleName, hbelow]
    rfl
  unfold moduleTables Table.ofList
  generalize (Table.empty : Table Path String) = modules, (Table.empty : Table String Path) = files
  induction fs generalizing modules files with
  | nil => rfl
  | cons f fs ih =>
    rw [List.map_cons, List.foldlM_cons, hname]
    exact ih _ _

/-- The tables of all source files below a root lead from every module to its file and back. If
the names are plain then two files have the same module exactly if one is a package with the name
of the other, and without such files the tables lead from every file to its module and back. -/
theorem modules_invertible (root : Path) (fs : List SourceFile) :
    ∃ modules files, moduleTables root (fs.map (path root)) = .ok (modules, files) ∧
      (∀ m p, files.get? m = some p → modules.get? p = some m) ∧
      ((∀ f ∈ fs, f.Plain) →
        (∀ f ∈ fs, ∀ g ∈ fs, f ≠ g →
          (modules.get? (f.path root) = modules.get? (g.path root) ↔ Clash f g ∨ Clash g f)) ∧
        ((∀ f ∈ fs, ∀ g ∈ fs, ¬ Clash f g) → ∀ f ∈ fs,
          ∃ m, modules.get? (f.path root) = some m ∧ files.get? m = some (f.path root))) := by
  refine ⟨_, _, moduleTables_eq root fs, ?_⟩
  have hmodules : ∀ f ∈ fs, (Table.ofList (fs.map fun f => (f.path root, f.module))).get?
      (f.path root) = some f.module := by
    intro f hf
    refine Table.get?_ofList_of_mem (List.mem_map_of_mem hf) fun w hw => ?_
    obtain ⟨g, -, hg⟩ := List.mem_map.mp hw
    obtain ⟨hpath, rfl⟩ := Prod.mk.inj hg
    have hnames : root.names ++ g.names = root.names ++ f.names := congrArg Path.names hpath
    rw [module, List.append_cancel_left hnames, module]
  refine ⟨fun m p hp => ?_, fun hplain => ⟨fun f hf g hg hne => ?_, fun hnone f hf => ?_⟩⟩
  · obtain ⟨f, hf, hpair⟩ := List.mem_map.mp (Table.mem_of_get?_ofList hp)
    obtain ⟨rfl, rfl⟩ := Prod.mk.inj hpair
    exact hmodules f hf
  · rw [hmodules f hf, hmodules g hg, Option.some_inj, module_eq_iff (hplain f hf) (hplain g hg)]
    exact or_iff_right hne
  · refine ⟨f.module, hmodules f hf, Table.get?_ofList_of_mem (List.mem_map.mpr ⟨f, hf, rfl⟩) ?_⟩
    intro w hw
    obtain ⟨g, hg, hpair⟩ := List.mem_map.mp hw
    obtain ⟨hmodule, rfl⟩ := Prod.mk.inj hpair
    rcases (module_eq_iff (hplain g hg) (hplain f hf)).mp hmodule with rfl | hclash | hclash
    · rfl
    · exact absurd hclash (hnone g hg f hf)
    · exact absurd hclash (hnone f hf g hg)

theorem modules_invertible_sample :
    let fs : List SourceFile := [⟨["a"], "b"⟩, ⟨["a"], "__init__"⟩, ⟨[], "b"⟩]
    ∃ modules files, moduleTables ⟨"/", ["p"]⟩ (fs.map (path ⟨"/", ["p"]⟩)) = .ok (modules, files) ∧
      ∀ f ∈ fs, ∃ m, modules.get? (f.path ⟨"/", ["p"]⟩) = some m ∧
        files.get? m = some (f.path ⟨"/", ["p"]⟩) := by
  intro fs
  obtain ⟨modules, files, htables, -, h⟩ := modules_invertible ⟨"/", ["p"]⟩ fs
  have hplain : ∀ f ∈ fs, f.Plain := by
    have hparts : ∀ f ∈ fs, "" ∉ f.dirs ∧ (∀ d ∈ f.dirs, '.' ∉ d.toList) ∧ '.' ∉ f.stem.toList := by
      decide
    exact fun f hf => ⟨(hparts f hf).1, (hparts f hf).2.1, (hparts f hf).2.2⟩
  exact ⟨modules, files, htables, (h hplain).2 (by simp [fs, Clash, package, initialStem])⟩

/-- Below a directory, the initial file of a package that is called `__init__` has a module of its
own. -/
theorem initial_files_apart : ¬ ∀ f g : SourceFile, f.Plain → g.Plain → f ≠ g →
    (f.module = g.module ↔ g = f.package ∨ f = g.package) := by
  intro h
  have hsame := (h ⟨["a"], "__init__"⟩ ⟨["a", "__init__"], "__init__"⟩
    ⟨by decide, by decide, by decide⟩ ⟨by decide, by decide, by decide⟩ (by simp)).mpr (.inl rfl)
  exact absurd hsame (by decide +kernel)

end SourceFile

end Symbol

end Restyle

import Restyle.Project.Engine
import Restyle.Proofs.Symbol.References

/-!
Agreement about names. The files of a project are processed one by one, each with its own new
names and those that the project plans. The main statement says when they agree about a name: the
project plans it, or all files that know the name already do the same with it by themselves. A
name that the deciding definition keeps is not planned, so the other files are left to themselves.
-/

namespace Restyle.Project

open Disk (Path)
open Restyle.Symbol (SymbolMap Refers)

variable {p : Path} {new : String}

section Names

variable [Dialect]

/-! ### New names in a file -/

/-- The new name that a file gives to a name for itself. -/
def ownName? (s : Settings) (d : Disk) (p : Path) (x : String) : Option String :=
  match load d p with
  | .ok (_, _, es) => (renameMap (renamings s es)).get? x
  | .error _ => none

/-- The new name that a file is given when an engine processes it. -/
def Engine.givenName? (e : Engine) (d : Disk) (p : Path) (x : String) : Option String :=
  match e.context, load d p with
  | some c, .ok (_, _, es) =>
    (combinedNames (renamings e.settings es) (Symbol.renamesIn c.plan p)).get? x
  | _, _ => none

theorem load_of_ok {d : Disk} {source : Source} (h : Source.ofFile d p = .ok source) :
    load d p = .ok (Session.keep source, source.text, elements source.tree) := by
  rw [load, Session.loadFile_of_ok h]
  rfl

theorem load_of_error {d : Disk} {f : Source.FileFault} (h : Source.ofFile d p = .error f) :
    load d p = .error (.load (Session.faultOf f)) := by
  rw [load, Session.loadFile_of_error h]

/-- A new name of a file's own is one that an element of the file has to have. -/
theorem exists_element_of_ownName? {s : Settings} {d : Disk} {x : String}
    (h : ownName? s d p x = some new) :
    ∃ source, Source.ofFile d p = .ok source ∧
      ∃ e ∈ elements source.tree, e.name = x ∧ s.newName? e = some new := by
  cases hsource : Source.ofFile d p with
  | error f =>
    rw [ownName?, load_of_error hsource] at h
    cases h
  | ok source =>
    unfold ownName? at h
    rw [load_of_ok hsource] at h
    have hpair := Table.mem_of_get?_ofList h
    obtain ⟨⟨e, other⟩, hrenaming, heq⟩ := List.mem_map.mp hpair
    cases heq
    rw [renamings_eq_filterMap] at hrenaming
    obtain ⟨e', he', hnew⟩ := List.mem_filterMap.mp hrenaming
    obtain ⟨new, hnew, heq⟩ := Option.map_eq_some_iff.mp hnew
    cases heq
    exact ⟨source, rfl, e, he', rfl, hnew⟩

/-- A name with a new one of a file's own is defined in that file. -/
theorem refers_of_ownName? {s : Settings} {d : Disk} {x : String}
    (h : ownName? s d p x = some new) : Refers d p x := by
  obtain ⟨source, hsource, e, he, hname, -⟩ := exists_element_of_ownName? h
  exact ⟨source, hsource, .inl ⟨e, he, hname⟩⟩

/-! ### New names in a project -/

section Planned

variable {s : Settings} {d : Disk} {root : Path} {paths : List Path} {x : String}

/-- What is known about the names of a project after the analysis of its files. -/
def projectMap (d : Disk) (root : Path) (paths : List Path) : SymbolMap :=
  (SymbolMap.empty.analyze d root paths).map

/-- The engine that has processed a project with what is known about its names. -/
def projectEngine (s : Settings) (d : Disk) (root : Path) (paths : List Path) : Engine :=
  ((Engine.start s (some (projectMap d root paths))).processProject d paths).1

theorem tidy_projectMap (hfault : (SymbolMap.empty.analyze d root paths).fault = none) :
    (projectMap d root paths).Tidy := Symbol.tidy_analyze hfault

/-- The names that a file is given come from the project or from the file itself. The file may
have changed since the project was analyzed. -/
theorem givenName?_projectEngine {d' : Disk} {source : Source}
    (h : Source.ofFile d' p = .ok source) : (projectEngine s d root paths).givenName? d' p x =
      ((Symbol.renamesIn ((projectMap d root paths).plan s) p).get? x).or (ownName? s d' p x) := by
  unfold Engine.givenName? ownName?
  rw [load_of_ok h]
  exact Table.get?_override _ (Table.nodup_keys_ofList _) x

section

variable (hfault : (SymbolMap.empty.analyze d root paths).fault = none)

include hfault

theorem mem_filesWith_of_ownName? (hp : p ∈ paths) (h : ownName? s d p x = some new) :
    p ∈ (projectMap d root paths).filesWith x :=
  (Symbol.mem_filesWith_analyze hfault).mpr (.inr ⟨hp, refers_of_ownName? h⟩)

theorem mem_paths_of_filesWith (h : p ∈ (projectMap d root paths).filesWith x) :
    p ∈ paths ∧ Refers d p x := by
  rcases (Symbol.mem_filesWith_analyze hfault).mp h with hbefore | hnow
  · cases hbefore
  · exact hnow

/-- A planned name is given to all files that know it. -/
theorem givenName?_of_planned (hplanned : (projectMap d root paths).plannedName? s x = some new)
    (hp : p ∈ (projectMap d root paths).filesWith x) :
    (projectEngine s d root paths).givenName? d p x = some new := by
  obtain ⟨-, source, hsource, -⟩ := mem_paths_of_filesWith hfault hp
  have hcross := (SymbolMap.get?_renamesIn_plan (tidy_projectMap hfault)).mpr ⟨hp, hplanned⟩
  rw [givenName?_projectEngine hsource, hcross, Option.some_or]

/-- Elsewhere a file is given what it gives to a name for itself. -/
theorem givenName?_of_not_planned (h : p ∉ (projectMap d root paths).filesWith x ∨ (projectMap d
      root paths).plannedName? s x = none) :
    (projectEngine s d root paths).givenName? d p x = ownName? s d p x := by
  cases hsource : Source.ofFile d p with
  | error f =>
    unfold Engine.givenName? ownName?
    rw [load_of_error hsource]
    rfl
  | ok source =>
    rw [givenName?_projectEngine hsource]
    cases hcross : (Symbol.renamesIn ((projectMap d root paths).plan s) p).get? x with
    | none => rw [Option.none_or]
    | some new =>
      obtain ⟨hp, hplanned⟩ :=
        (SymbolMap.get?_renamesIn_plan (tidy_projectMap hfault)).mp hcross
      rcases h with hunknown | hnone
      · exact absurd hp hunknown
      · rw [hnone] at hplanned
        cases hplanned

end

end Planned

end Names

/-! ### Agreement -/

/-- The files of a project agree about a name: those that get a new one get the same, and if one
of them gets one, then so do all files in which the name is known. -/
structure Agree (given : Path → Option String) (paths known : List Path) : Prop where
  same : ∀ p ∈ paths, ∀ q ∈ paths, ∀ a b, given p = some a → given q = some b → a = b
  spread : ∀ p ∈ paths, given p ≠ none → ∀ q ∈ known, given q ≠ none

/-- Files that get a new name only where it is known agree exactly if all of these get the
same. -/
theorem agree_iff_uniform {given : Path → Option String} {paths known : List Path}
    (hknown : ∀ p ∈ known, p ∈ paths) (hgiven : ∀ p ∈ paths, given p ≠ none → p ∈ known) :
    Agree given paths known ↔ ∃ o, ∀ p ∈ known, given p = o := by
  constructor
  · intro h
    -- the value of one file that gets a new name, if there is one, is the value of all
    by_cases hsome : ∃ p ∈ paths, given p ≠ none
    · obtain ⟨p, hp, hne⟩ := hsome
      obtain ⟨a, ha⟩ := Option.ne_none_iff_exists'.mp hne
      refine ⟨some a, ?_⟩
      intro q hq
      obtain ⟨b, hb⟩ := Option.ne_none_iff_exists'.mp (h.spread p hp hne q hq)
      rw [hb, h.same p hp q (hknown q hq) a b ha hb]
    · refine ⟨none, ?_⟩
      intro q hq
      by_contra hne
      exact hsome ⟨q, hknown q hq, hne⟩
  · rintro ⟨o, ho⟩
    constructor
    · intro p hp q hq a b ha hb
      have hpo := ho p (hgiven p hp (by simp [ha]))
      have hqo := ho q (hgiven q hq (by simp [hb]))
      rw [ha] at hpo
      rw [hb, ← hpo] at hqo
      exact (Option.some.inj hqo).symm
    · intro p hp hne q hq
      rw [ho q hq, ← ho p (hgiven p hp hne)]
      exact hne

/-- The files of a project agree about a name exactly if the project plans it, or if all files
that know it give it the same new name, or none, for themselves. -/
theorem agree_iff_planned_or_alike [Dialect] (s : Settings) (d : Disk) (root : Path)
    (paths : List Path)
    (x : String) (hfault : (SymbolMap.empty.analyze d root paths).fault = none) :
    Agree ((projectEngine s d root paths).givenName? d · x) paths
        ((projectMap d root paths).filesWith x) ↔
      (projectMap d root paths).plannedName? s x ≠ none ∨
        ∃ o, ∀ p ∈ (projectMap d root paths).filesWith x, ownName? s d p x = o := by
  have hknown (p : Path) (hp : p ∈ (projectMap d root paths).filesWith x) : p ∈ paths :=
    (mem_paths_of_filesWith hfault hp).1
  have hgiven (p : Path) (hp : p ∈ paths)
      (hne : (projectEngine s d root paths).givenName? d p x ≠ none) :
      p ∈ (projectMap d root paths).filesWith x := by
    by_contra hunknown
    rw [givenName?_of_not_planned hfault (.inl hunknown)] at hne
    obtain ⟨new, hnew⟩ := Option.ne_none_iff_exists'.mp hne
    exact hunknown (mem_filesWith_of_ownName? hfault hp hnew)
  rw [agree_iff_uniform hknown hgiven]
  cases hplanned : (projectMap d root paths).plannedName? s x with
  | some new =>
    -- what the files do by themselves does not matter
    have hall : ∃ o, ∀ p ∈ (projectMap d root paths).filesWith x,
        (projectEngine s d root paths).givenName? d p x = o :=
      ⟨some new, fun p hp => givenName?_of_planned hfault hplanned hp⟩
    exact iff_of_true hall (.inl nofun)
  | none =>
    have halike (p : Path) := givenName?_of_not_planned (p := p) hfault (.inr hplanned)
    simp only [halike, ne_eq, not_true_eq_false, false_or]

/-- A project with a class, whose name is as it should be, and a file that imports the class and
then uses its name for a variable. -/
def shapeProject : Disk :=
  ⟨.dir .directory
    [("shapes.py", .file .file (Text.encode "class Shape: pass\n".toList)),
      ("uses.py", .file .file
        (Text.encode "from shapes import Shape\nShape = Shape()\n".toList))], false, some []⟩

def shapePaths : List Path := [⟨"", ["shapes.py"]⟩, ⟨"", ["uses.py"]⟩]

theorem agree_iff_planned_or_alike_sample :
    (SymbolMap.empty.analyze shapeProject ⟨"", []⟩ shapePaths).fault = none ∧
      (Agree ((projectEngine .usual shapeProject ⟨"", []⟩ shapePaths).givenName? shapeProject ·
            "Shape") shapePaths ((projectMap shapeProject ⟨"", []⟩ shapePaths).filesWith "Shape") ↔
        (projectMap shapeProject ⟨"", []⟩ shapePaths).plannedName? .usual "Shape" ≠ none ∨
          ∃ o, ∀ p ∈ (projectMap shapeProject ⟨"", []⟩ shapePaths).filesWith "Shape",
            ownName? .usual shapeProject p "Shape" = o) :=
  have hfault : (SymbolMap.empty.analyze shapeProject ⟨"", []⟩ shapePaths).fault = none := by
    decide +kernel
  ⟨hfault, agree_iff_planned_or_alike .usual shapeProject ⟨"", []⟩ shapePaths "Shape" hfault⟩

/-- The class keeps its name, and the file that imports it changes the name all the same. -/
theorem kept_name_changed_elsewhere :
    (⟨"", ["shapes.py"]⟩ : Path) ∈
        (projectMap shapeProject ⟨"", []⟩ shapePaths).filesWith "Shape" ∧
      (projectEngine .usual shapeProject ⟨"", []⟩ shapePaths).givenName? shapeProject
        ⟨"", ["shapes.py"]⟩ "Shape" = none ∧
      (projectEngine .usual shapeProject ⟨"", []⟩ shapePaths).givenName? shapeProject
        ⟨"", ["uses.py"]⟩ "Shape" = some "shape" ∧
      ¬ Agree ((projectEngine .usual shapeProject ⟨"", []⟩ shapePaths).givenName? shapeProject ·
          "Shape") shapePaths
        ((projectMap shapeProject ⟨"", []⟩ shapePaths).filesWith "Shape") := by
  have hknown : (⟨"", ["shapes.py"]⟩ : Path) ∈
      (projectMap shapeProject ⟨"", []⟩ shapePaths).filesWith "Shape" := by
    decide +kernel
  have hkept : (projectEngine .usual shapeProject ⟨"", []⟩ shapePaths).givenName? shapeProject
      ⟨"", ["shapes.py"]⟩ "Shape" = none := by
    decide +kernel
  have hchanged : (projectEngine .usual shapeProject ⟨"", []⟩ shapePaths).givenName? shapeProject
      ⟨"", ["uses.py"]⟩ "Shape" = some "shape" := by
    decide +kernel
  refine ⟨hknown, hkept, hchanged, ?_⟩
  intro hagree
  exact hagree.spread ⟨"", ["uses.py"]⟩ (by decide) (by simp [hchanged]) _ hknown hkept

end Restyle.Project

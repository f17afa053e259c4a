import Restyle.Proofs.CommandLine.AllOrNothing

/-!
Two spellings of one target. The files of a target are selected below the path that it resolves to,
while the names of modules start from the target as it was given, so files that are found through a
relative path never lie below it. The main statement says when a run with a relative path ends like
the run with the resolved one: if nothing is selected, or if that run fails as well.
-/

namespace Restyle.CommandLine

open Disk (Path)
open Project (projectResult)
open Review (Desk State perform)
open Restyle.Symbol (SymbolMap)

variable {settings : Settings} {path : Path}

/-! ### Selected files -/

section Selected

variable {d : Disk} {config : Option String} {p q : Path} {files : List Path}

/-- The files that are selected through a path are also selected through the path that it resolves
to, and lie below the directory that module names start from there. -/
theorem selectFiles_resolved {s : Selection} (hp : d.resolve q = .ok p)
    (h : selectFiles d s q = .ok files) :
    selectFiles d s p = .ok files ∧
      ∃ root, rootOf d p = .ok root ∧ root.root = "/" ∧ ∀ f ∈ files, f.IsBelow root := by
  have hroot := (Disk.resolve_of_resolve hp).1
  rcases selectFiles_eq_ok_iff.mp h with ⟨-, hscan⟩ | ⟨-, -, hscan⟩
  · obtain ⟨hfile, hscan, hfiles⟩ := Selection.scanFile_resolved hp hscan
    have hnodir := Disk.isDir?_of_isFile? hfile
    refine ⟨selectFiles_eq_ok_iff.mpr (.inl ⟨hfile, hscan⟩), p.parent, ?_, hroot, ?_⟩
    · simp [rootOf, hnodir]
    · intro f hf
      rw [hfiles f hf]
      exact p.isBelow_parent
  · obtain ⟨hdir, hscan, hfiles⟩ := Selection.scanDirectory_resolved hp hscan
    have hnofile := Disk.isFile?_of_isDir? hdir
    refine ⟨selectFiles_eq_ok_iff.mpr (.inr ⟨hnofile, hdir, hscan⟩), p, ?_, hroot, hfiles⟩
    simp [rootOf, hdir]

theorem prepare_resolved [Config.Validator] {given resolved : String}
    (hp : d.resolve (Path.parse given) = .ok (Path.parse resolved))
    (h : prepare d config (some given) = .ok (settings, path, files)) :
    path = Path.parse given ∧
      prepare d config (some resolved) = .ok (settings, Path.parse resolved, files) ∧
      ∃ root, rootOf d (Path.parse resolved) = .ok root ∧ root.root = "/" ∧
        ∀ f ∈ files, f.IsBelow root := by
  obtain ⟨text, c, hconfig, hopen, hproblems, hsettings, hpath, hselect⟩ := prepare_eq_ok_iff.mp h
  obtain ⟨hagain, hroot⟩ := selectFiles_resolved hp hselect
  refine ⟨hpath.symm, prepare_eq_ok_iff.mpr ?_, hroot⟩
  exact ⟨text, c, hconfig, hopen, hproblems, hsettings, rfl, hagain⟩

theorem root_of_rootOf {root : Path} (h : rootOf d p = .ok root) : root.root = p.root := by
  obtain ⟨isDir, -, h⟩ := Except.bind_eq_ok.mp h
  obtain rfl := Except.ok.inj h
  cases isDir <;> rfl

/-- Files with a root do not lie below a relative path. -/
theorem not_reviewable_of_relative [Dialect] (hp : p.isAbsolute = false) (hfiles : files ≠ [])
    (hroots : ∀ f ∈ files, f.root = "/") (root : Path) : ¬ Reviewable settings d p files root := by
  intro h
  obtain ⟨f, rest, rfl⟩ := List.exists_cons_of_ne_nil hfiles
  have hbelow := (Symbol.fault_analyze_iff _ _ _ _).mp h.below f List.mem_cons_self
  have hroot : root.root = "" := by
    rw [root_of_rootOf h.start]
    simpa [Path.isAbsolute] using hp
  have hsame : "/" = "" := by
    rw [← hroots f List.mem_cons_self, hbelow.1, hroot]
  exact absurd hsame (by decide)

end Selected

/-! ### Two runs -/

section Runs

variable [Dialect] [Config.Validator]

variable {desk : Desk} {args args' : List String} {config : Option String}
  {given resolved : String} {verbose : Bool}

/-- A run with a relative path that selects something stops, although the files lie below the
resolved path. -/
theorem run_of_relative {files : List Path}
    (hargs : readArguments args = .ok (.process config (some given) verbose))
    (hgiven : (Path.parse given).isAbsolute = false)
    (hresolve : desk.disk.resolve (Path.parse given) = .ok (Path.parse resolved))
    (h : prepare desk.disk config (some given) = .ok (settings, path, files))
    (hfiles : files ≠ []) :
    ∃ lines, run desk args = ⟨1, desk.say lines, []⟩ := by
  obtain ⟨rfl, -, root, -, hroot, hbelow⟩ := prepare_resolved hresolve h
  refine run_of_not_reviewable hargs h hfiles (not_reviewable_of_relative hgiven hfiles ?_)
  intro f hf
  rw [(hbelow f hf).1, hroot]

/-- The run with the resolved path comes to its review unless a file cannot be processed. -/
theorem run_of_resolved {files : List Path}
    (hargs : readArguments args = .ok (.process config (some resolved) verbose))
    (hresolve : desk.disk.resolve (Path.parse given) = .ok (Path.parse resolved))
    (h : prepare desk.disk config (some given) = .ok (settings, path, files))
    (hfiles : files ≠ []) :
    ∃ root, rootOf desk.disk (Path.parse resolved) = .ok root ∧
      ((∀ f ∈ files, (projectResult settings desk.disk root files f).success = true) →
        ∃ lines, run desk args = conclude (perform
          (reviewResults settings (files.map (projectResult settings desk.disk root files)))
          (State.tell ⟨.start, desk⟩ lines))) := by
  obtain ⟨-, hprepare, root, hroot, -, hbelow⟩ := prepare_resolved hresolve h
  refine ⟨root, hroot, ?_⟩
  intro hprocessed
  have hfault := (Symbol.fault_analyze_iff .empty desk.disk root files).mpr hbelow
  exact run_of_reviewable hargs hprepare hfiles ⟨hroot, hfault, hprocessed⟩

/-- A run with a relative path ends with the code and the disk of the run with the resolved path
exactly if no file is selected, or if that run fails and leaves the disk alone. If a file is
selected then the run with the relative path stops, while the other one reviews the results for the
same files, unless one of them cannot be processed. -/
theorem relative_run_agrees_iff
    (hargs : readArguments args = .ok (.process config (some given) verbose))
    (hargs' : readArguments args' = .ok (.process config (some resolved) verbose))
    (hgiven : (Path.parse given).isAbsolute = false)
    (hresolve : desk.disk.resolve (Path.parse given) = .ok (Path.parse resolved)) :
    ((run desk args).code = (run desk args').code ∧
        (run desk args).desk.disk = (run desk args').desk.disk ↔
      (∃ settings, prepare desk.disk config (some given) = .ok (settings, Path.parse given, [])) ∨
        (run desk args').code = 1 ∧ (run desk args').desk.disk = desk.disk) ∧
    ∀ settings path files, prepare desk.disk config (some given) = .ok (settings, path, files) →
      files ≠ [] →
      (∃ lines, run desk args = ⟨1, desk.say lines, []⟩) ∧
        ∃ root, rootOf desk.disk (Path.parse resolved) = .ok root ∧
          ((∀ f ∈ files, (projectResult settings desk.disk root files f).success = true) →
            ∃ lines, run desk args' = conclude (perform
              (reviewResults settings (files.map (projectResult settings desk.disk root files)))
              (State.tell ⟨.start, desk⟩ lines))) := by
  constructor
  · cases hprepare : prepare desk.disk config (some given) with
    | error f =>
      obtain ⟨lines, hrun⟩ := run_of_failure hargs hprepare
      rw [hrun, or_iff_right (by simp)]
      exact and_congr eq_comm eq_comm
    | ok selected =>
      obtain ⟨settings, path, files⟩ := selected
      by_cases hfiles : files = []
      · subst hfiles
        obtain ⟨rfl, hprepare', -⟩ := prepare_resolved hresolve hprepare
        obtain ⟨lines, hrun⟩ := run_of_nothing hargs hprepare
        obtain ⟨lines', hrun'⟩ := run_of_nothing hargs' hprepare'
        rw [hrun, hrun']
        exact iff_of_true ⟨rfl, rfl⟩ (.inl ⟨settings, rfl⟩)
      · obtain ⟨lines, hrun⟩ := run_of_relative hargs hgiven hresolve hprepare hfiles
        rw [hrun, or_iff_right (by simp [hfiles])]
        exact and_congr eq_comm eq_comm
  · intro settings path files hprepare hfiles
    exact ⟨run_of_relative hargs hgiven hresolve hprepare hfiles,
      run_of_resolved hargs' hresolve hprepare hfiles⟩

end Runs

def namesDesk : Desk :=
  Review.consoleDesk (workDisk [("names.py", "def oldName(): pass\n")]) ["y"]

theorem relative_run_agrees_iff_sample :
    readArguments ["config.json", "."] = .ok (.process (some "config.json") (some ".") false) ∧
      readArguments ["config.json", "/work"] =
        .ok (.process (some "config.json") (some "/work") false) ∧
      (Path.parse ".").isAbsolute = false ∧
      namesDesk.disk.resolve (Path.parse ".") = .ok (Path.parse "/work") ∧
      ((run namesDesk ["config.json", "."]).code = (run namesDesk ["config.json", "/work"]).code ∧
          (run namesDesk ["config.json", "."]).desk.disk =
            (run namesDesk ["config.json", "/work"]).desk.disk ↔
        (∃ settings, prepare namesDesk.disk (some "config.json") (some ".") =
            .ok (settings, Path.parse ".", [])) ∨
          (run namesDesk ["config.json", "/work"]).code = 1 ∧
            (run namesDesk ["config.json", "/work"]).desk.disk = namesDesk.disk) := by
  have hargs : readArguments ["config.json", "."] =
      .ok (.process (some "config.json") (some ".") false) := by decide +kernel
  have hargs' : readArguments ["config.json", "/work"] =
      .ok (.process (some "config.json") (some "/work") false) := by decide +kernel
  have hgiven : (Path.parse ".").isAbsolute = false := by decide +kernel
  have hresolve : namesDesk.disk.resolve (Path.parse ".") = .ok (Path.parse "/work") := by
    decide +kernel
  exact ⟨hargs, hargs', hgiven, hresolve,
    (relative_run_agrees_iff hargs hargs' hgiven hresolve).1⟩

/-- The function gets its new name if the whole path is given, and keeps the old one if a dot is
given instead, although both lead to the same directory. -/
theorem dot_keeps_names :
    (run namesDesk ["config.json", "."]).code = 1 ∧
      (run namesDesk ["config.json", "."]).desk.disk.read ⟨"/", ["work", "names.py"]⟩ =
        .ok (Text.encode "def oldName(): pass\n".toList) ∧
      (run namesDesk ["config.json", "/work"]).code = 0 ∧
      (run namesDesk ["config.json", "/work"]).desk.disk.read ⟨"/", ["work", "names.py"]⟩ =
        .ok (Text.encode "def old_name(): pass\n".toList) := by
  decide +kernel

end Restyle.CommandLine

import Restyle.CommandLine.Run
import Restyle.Proofs.Project.Marks
import Restyle.Proofs.Review.Consent
import Restyle.Proofs.Selection.Scan

/-!
Runs that come to a review and runs that do not. A review is reached if all selected files lie below
the directory that module names start from, and all of them can be processed. The main statement
says that a single file that cannot be processed stops a run before it: nothing is written, nobody
is asked, and the exit code is one.
-/

namespace Restyle.CommandLine

open Disk (Path)
open Project (Engine projectMap projectResult)
open Review (Desk ReviewM State Stop perform say)
open Restyle.Symbol (SymbolMap)

/-! ### What there is to process -/

section Prepare

variable {d : Disk} {files : List Path}

theorem selectFiles_eq_ok_iff {s : Selection} {p : Path} :
    selectFiles d s p = .ok files ↔
      (d.isFile? p = .ok true ∧ s.scanFile d p = .ok files) ∨
        d.isFile? p = .ok false ∧ d.isDir? p = .ok true ∧ s.scanDirectory d p = .ok files := by
  simp [selectFiles, Except.bind_eq_ok, Except.mapError_eq_ok, Bool.exists_bool, or_comm]

theorem prepare_eq_ok_iff [Config.Validator] {config : Option String} {target : String}
    {settings : Settings} {path : Path} :
    prepare d config (some target) = .ok (settings, path, files) ↔
      ∃ text c, config = some text ∧ Config.open? d .standard (Path.parse text) = .ok c ∧
        (Selection.ofSettings c.settings).problems.isEmpty = true ∧ c.settings = settings ∧
        Path.parse target = path ∧
        selectFiles d (Selection.ofSettings c.settings) (Path.parse target) = .ok files := by
  cases config with
  | none => simp [prepare, throw, throwThe, MonadExceptOf.throw]
  | some text =>
    simp only [prepare, Except.bind_eq_ok, Except.mapError_eq_ok, Except.unless_throw_eq_ok, pure,
      Except.pure, Except.ok.injEq, Prod.mk.injEq]
    constructor
    · rintro ⟨c, hopen, hproblems, files, hselect, hsettings, hpath, rfl⟩
      exact ⟨text, c, rfl, hopen, hproblems, hsettings, hpath, hselect⟩
    · rintro ⟨text, c, ⟨⟩, hopen, hproblems, hsettings, hpath, hselect⟩
      exact ⟨c, hopen, hproblems, files, hselect, hsettings, hpath, rfl⟩

end Prepare

/-! ### The parts of a run -/

/-- How a run ends once its project has been processed. -/
def conclude : Except Stop Completion × State → Exit
  | (.ok done, s) =>
    if done.success then ⟨0, s.desk.say ["✅ Processing completed successfully!"], []⟩
    else ⟨1, s.desk.say ["❌ Processing completed with errors."], []⟩
  | (.error .interrupt, s) => ⟨1, s.desk.say ["", "⚠️  Operation cancelled by user."], []⟩
  | (.error .endOfInput, s) => ⟨1, s.desk.say [unexpectedLine (Stop.message .endOfInput)], []⟩

@[simp] theorem disk_tell (s : State) (lines : List String) :
    (s.tell lines).desk.disk = s.desk.disk := rfl

theorem perform_say_if {α : Type} (c : Prop) [Decidable c] (lines : List String) (x : ReviewM α)
    (s : State) :
    perform (if c then say lines >>= fun _ => x else x) s =
      perform x (s.tell (if c then lines else [])) := by
  split
  · exact Review.perform_say_bind lines _ s
  · simp [State.tell]

section Run

variable [Dialect] [Config.Validator]

variable {desk : Desk} {args : List String} {config target : Option String} {verbose : Bool}
  {settings : Settings} {path : Path} {files : List Path}

/-- What is left of a run once its project has been processed. -/
def finish (done : Completion) : ReviewM Nat :=
  if done.success then do
    say ["✅ Processing completed successfully!"]
    return 0
  else do
    say ["❌ Processing completed with errors."]
    return 1

theorem perform_runCommand {s : State}
    (hprepare : prepare s.desk.disk config target = .ok (settings, path, files))
    (hfiles : files ≠ []) :
    ∃ lines, perform (runCommand config target verbose) s =
      perform (processProject settings files path verbose >>= finish) (s.tell lines) := by
  obtain ⟨f, rest, rfl⟩ := List.exists_cons_of_ne_nil hfiles
  rw [runCommand]
  simp only [perform_say_if, Review.perform_get_bind, disk_tell, hprepare, Review.State.tell_tell]
  exact ⟨_, rfl⟩

variable (hargs : readArguments args = .ok (.process config target verbose))

include hargs

theorem run_of_told {code : Nat}
    (h : ∃ lines, perform (runCommand config target verbose) ⟨.start, desk⟩ =
      (.ok code, State.tell ⟨.start, desk⟩ lines)) :
    ∃ lines, run desk args = ⟨code, desk.say lines, []⟩ := by
  obtain ⟨lines, hcommand⟩ := h
  refine ⟨lines, ?_⟩
  rw [run, hargs]
  dsimp only
  rw [runGuarded, Review.perform_tryCatch, hcommand]
  rfl

/-- A run without a target tells why there is none. -/
theorem run_of_failure {f : Failure} (h : prepare desk.disk config target = .error f) :
    ∃ lines, run desk args = ⟨1, desk.say lines, []⟩ := by
  apply run_of_told hargs
  rw [runCommand]
  simp only [perform_say_if, Review.perform_get_bind, disk_tell, h, Review.perform_say_bind,
    Review.State.tell_tell]
  exact ⟨_, rfl⟩

/-- A run without files has nothing to do. -/
theorem run_of_nothing (h : prepare desk.disk config target = .ok (settings, path, [])) :
    ∃ lines, run desk args = ⟨0, desk.say lines, []⟩ := by
  apply run_of_told hargs
  rw [runCommand]
  simp only [perform_say_if, Review.perform_get_bind, disk_tell, h, Review.perform_say_bind,
    Review.State.tell_tell]
  exact ⟨_, rfl⟩

theorem run_of_prepared
    (hprepare : prepare desk.disk config target = .ok (settings, path, files))
    (hfiles : files ≠ []) :
    ∃ lines, run desk args =
      conclude (perform (processProject settings files path verbose)
        (State.tell ⟨.start, desk⟩ lines)) := by
  obtain ⟨lines, hcommand⟩ := perform_runCommand (s := ⟨.start, desk⟩) hprepare hfiles
  refine ⟨lines, ?_⟩
  rw [run, hargs]
  dsimp only
  rw [runGuarded, Review.perform_tryCatch, hcommand, Review.perform_bind]
  rcases perform (processProject settings files path verbose) (State.tell ⟨.start, desk⟩ lines)
    with ⟨stop | ⟨success, counts⟩, s⟩
  · cases stop <;> rfl
  · cases success <;> rfl

end Run

/-! ### Reaching the review -/

/-- Nothing stands in the way of a review: module names have a directory to start from, all files
lie below it, and all of them can be processed. -/
structure Reviewable [Dialect] (settings : Settings) (d : Disk) (path : Path) (files : List Path)
    (root : Path) : Prop where
  start : rootOf d path = .ok root
  below : (SymbolMap.empty.analyze d root files).fault = none
  processed : ∀ f ∈ files, (projectResult settings d root files f).success = true

section Project

variable [Dialect] {settings : Settings} {path root : Path} {files : List Path} {s : State}
  (verbose : Bool)

theorem success_processProject_iff (settings : Settings) (d : Disk) (root : Path)
    (files : List Path) :
    ((Engine.start settings (some (projectMap d root files))).processProject d files).2.1.success =
      true ↔ ∀ f ∈ files, (projectResult settings d root files f).success = true := by
  rw [Project.ProjectResult.success, Project.files_processProject]
  simp

theorem perform_processFiles_of_success (hfiles : files ≠ [])
    (h : ∀ f ∈ files, (projectResult settings s.desk.disk root files f).success = true) :
    ∃ lines, perform (processFiles settings (projectMap s.desk.disk root files) files verbose) s =
      perform (reviewResults settings (files.map (projectResult settings s.desk.disk root files)))
        (s.tell lines) := by
  have hsuccess := (success_processProject_iff settings s.desk.disk root files).mpr h
  have hresults := Project.files_processProject settings s.desk.disk root files
  have hsome : (files.map (projectResult settings s.desk.disk root files)).isEmpty = false := by
    simpa using hfiles
  rw [processFiles]
  simp only [Review.perform_say_bind, Review.perform_get_bind, disk_tell, hsuccess, hresults, hsome,
    Bool.not_true, Bool.false_eq_true, ↓reduceIte, perform_say_if, Review.State.tell_tell]
  exact ⟨_, rfl⟩

theorem perform_processFiles_of_failure
    (h : ¬ ∀ f ∈ files, (projectResult settings s.desk.disk root files f).success = true) :
    ∃ lines, perform (processFiles settings (projectMap s.desk.disk root files) files verbose) s =
      (.ok .failed, s.tell lines) := by
  have hsuccess := mt (success_processProject_iff settings s.desk.disk root files).mp h
  rw [processFiles]
  simp only [Review.perform_say_bind, Review.perform_get_bind, disk_tell, hsuccess, Bool.not_false,
    ↓reduceIte, Review.perform_pure, Review.State.tell_tell]
  exact ⟨_, rfl⟩

omit [Dialect] in
theorem perform_breakOff (message : String) (s : State) (lines : List String) :
    ∃ more, perform (breakOff message) (s.tell lines) = (.ok .failed, s.tell more) := by
  rw [breakOff, Review.perform_say_bind, Review.State.tell_tell]
  exact ⟨_, rfl⟩

theorem perform_processProject_of_refused {r : Disk.Refusal}
    (h : rootOf s.desk.disk path = .error r) :
    ∃ lines, perform (processProject settings files path verbose) s =
      (.ok .failed, s.tell lines) := by
  rw [processProject]
  simp only [Review.perform_say_bind, Review.perform_get_bind, disk_tell, h]
  exact perform_breakOff _ s _

theorem perform_processProject_of_outside {e : Path.NotBelow}
    (hroot : rootOf s.desk.disk path = .ok root)
    (h : (SymbolMap.empty.analyze s.desk.disk root files).fault = some e) :
    ∃ lines, perform (processProject settings files path verbose) s =
      (.ok .failed, s.tell lines) := by
  rw [processProject]
  simp only [Review.perform_say_bind, Review.perform_get_bind, disk_tell, hroot, h,
    Review.State.tell_tell]
  exact perform_breakOff _ s _

theorem perform_processProject_of_analyzed (hroot : rootOf s.desk.disk path = .ok root)
    (h : (SymbolMap.empty.analyze s.desk.disk root files).fault = none) :
    ∃ lines, perform (processProject settings files path verbose) s =
      perform (processFiles settings (projectMap s.desk.disk root files) files verbose)
        (s.tell lines) := by
  rw [processProject]
  simp only [Review.perform_say_bind, Review.perform_get_bind, disk_tell, hroot, h, perform_say_if,
    Review.State.tell_tell]
  exact ⟨_, rfl⟩

/-- If nothing stands in the way then the results for the files are reviewed. -/
theorem perform_processProject_of_reviewable (hfiles : files ≠ [])
    (h : Reviewable settings s.desk.disk path files root) :
    ∃ lines, perform (processProject settings files path verbose) s =
      perform (reviewResults settings (files.map (projectResult settings s.desk.disk root files)))
        (s.tell lines) := by
  obtain ⟨lines, hanalyzed⟩ := perform_processProject_of_analyzed verbose h.start h.below
  obtain ⟨more, hprocessed⟩ :=
    perform_processFiles_of_success (s := s.tell lines) verbose hfiles h.processed
  refine ⟨lines ++ more, ?_⟩
  rw [hanalyzed, ← Review.State.tell_tell]
  exact hprocessed

/-- Otherwise lines are told, and that is all. -/
theorem perform_processProject_of_not_reviewable
    (h : ∀ root, ¬ Reviewable settings s.desk.disk path files root) :
    ∃ lines, perform (processProject settings files path verbose) s =
      (.ok .failed, s.tell lines) := by
  cases hroot : rootOf s.desk.disk path with
  | error r => exact perform_processProject_of_refused verbose hroot
  | ok root =>
    cases hfault : (SymbolMap.empty.analyze s.desk.disk root files).fault with
    | some e => exact perform_processProject_of_outside verbose hroot hfault
    | none =>
      have hfailure : ¬ ∀ f ∈ files,
          (projectResult settings s.desk.disk root files f).success = true :=
        fun hall => h root ⟨hroot, hfault, hall⟩
      obtain ⟨lines, hanalyzed⟩ := perform_processProject_of_analyzed verbose hroot hfault
      obtain ⟨more, hfailed⟩ :=
        perform_processFiles_of_failure (s := s.tell lines) verbose hfailure
      refine ⟨lines ++ more, ?_⟩
      rw [hanalyzed, ← Review.State.tell_tell]
      exact hfailed

end Project

/-! ### Files that cannot be processed -/

/-- A selected file cannot be processed: it cannot be read, is no text or no source, or its changes
cannot be made. -/
def Unprocessable [Dialect] (settings : Settings) (d : Disk) (path : Path) (files : List Path)
    (f : Path) : Prop :=
  (∃ fault, Source.ofFile d f = .error fault) ∨
    ∃ root, rootOf d path = .ok root ∧ (projectResult settings d root files f).success = false

theorem not_reviewable_of_unprocessable [Dialect] {settings : Settings} {d : Disk} {path f : Path}
    {files : List Path} (hf : f ∈ files) (h : Unprocessable settings d path files f) (root : Path) :
    ¬ Reviewable settings d path files root := by
  intro hreviewable
  have hsuccess := hreviewable.processed f hf
  rcases h with ⟨fault, hfault⟩ | ⟨root', hroot, hfailure⟩
  · obtain ⟨source, hsource⟩ := Project.exists_source_of_success hsuccess
    rw [hfault] at hsource
    cases hsource
  · rw [hreviewable.start] at hroot
    obtain rfl := Except.ok.inj hroot
    rw [hfailure] at hsuccess
    cases hsuccess

section Run

variable [Dialect] [Config.Validator]

variable {desk : Desk} {args : List String} {config target : Option String} {verbose : Bool}
  {settings : Settings} {path : Path} {files : List Path}

section

variable (hargs : readArguments args = .ok (.process config target verbose))
  (hprepare : prepare desk.disk config target = .ok (settings, path, files)) (hfiles : files ≠ [])

include hargs hprepare hfiles

/-- A run that does not come to its review tells lines and changes nothing. -/
theorem run_of_not_reviewable (h : ∀ root, ¬ Reviewable settings desk.disk path files root) :
    ∃ lines, run desk args = ⟨1, desk.say lines, []⟩ := by
  obtain ⟨lines, hrun⟩ := run_of_prepared hargs hprepare hfiles
  obtain ⟨more, hproject⟩ :=
    perform_processProject_of_not_reviewable (s := State.tell ⟨.start, desk⟩ lines) verbose h
  rw [hrun, hproject, Review.State.tell_tell]
  exact ⟨_, congrArg (Exit.mk 1 · []) (Desk.say_say desk _ _)⟩

/-- A run that comes to its review ends as the review does. -/
theorem run_of_reviewable {root : Path} (h : Reviewable settings desk.disk path files root) :
    ∃ lines, run desk args =
      conclude (perform
        (reviewResults settings (files.map (projectResult settings desk.disk root files)))
        (State.tell ⟨.start, desk⟩ lines)) := by
  obtain ⟨lines, hrun⟩ := run_of_prepared hargs hprepare hfiles
  obtain ⟨more, hproject⟩ :=
    perform_processProject_of_reviewable (s := State.tell ⟨.start, desk⟩ lines) verbose hfiles h
  rw [hrun, hproject, Review.State.tell_tell]
  exact ⟨_, rfl⟩

end

/-- If a selected file cannot be processed then a run leaves the disk alone, reads no answer, opens
no window, and ends with exit code one. If all can be processed, and lie where they should, then the
run ends as the review of all the results does. -/
theorem run_of_unprocessable (desk : Desk)
    (hargs : readArguments args = .ok (.process config target verbose))
    (hprepare : prepare desk.disk config target = .ok (settings, path, files)) :
    ((∃ f ∈ files, Unprocessable settings desk.disk path files f) →
        ∃ lines, run desk args = ⟨1, desk.say lines, []⟩) ∧
      ∀ root, files ≠ [] → Reviewable settings desk.disk path files root →
        ∃ lines, run desk args = conclude (perform
          (reviewResults settings (files.map (projectResult settings desk.disk root files)))
          (State.tell ⟨.start, desk⟩ lines)) := by
  constructor
  · rintro ⟨f, hf, hfailure⟩
    exact run_of_not_reviewable hargs hprepare (List.ne_nil_of_mem hf)
      (not_reviewable_of_unprocessable hf hfailure)
  · intro root hfiles hreviewable
    exact run_of_reviewable hargs hprepare hfiles hreviewable

end Run

/-- A working directory with a configuration that asks for names of functions, and other files. -/
def workDisk (files : List (String × String)) : Disk :=
  ⟨.dir .directory [("work", .dir .directory (("config.json", .file .file (Text.encode
    ("\x7b\"output\":\x7b\"mode\":\"in_place\"\x7d,\"file_selection\":\x7b\x7d,".toList ++
      "\"naming_conventions\":\x7b\"functions\":\"snake_case\"\x7d,".toList ++
      "\"formatting_rules\":\x7b\x7d,".toList ++
      "\"enabled_rules\":\x7b\"function_naming\":true\x7d\x7d".toList))) ::
      files.map fun f => (f.1, .file .file (Text.encode f.2.toList))))], false, some ["work"]⟩

def brokenDisk : Disk := workDisk [("names.py", "def oldName(): pass\n"), ("broken.py", "def (\n")]

theorem exists_prepare_brokenDisk :
    ∃ settings files,
      prepare brokenDisk (some "config.json") (some "/work") =
        .ok (settings, ⟨"/", ["work"]⟩, files) ∧
      ⟨"/", ["work", "names.py"]⟩ ∈ files ∧ ⟨"/", ["work", "broken.py"]⟩ ∈ files := by
  obtain ⟨c, hopen, hc⟩ := exists_ok_of_any
    (x := Config.open? brokenDisk .standard (Path.parse "config.json"))
    (p := fun c => (Selection.ofSettings c.settings).problems.isEmpty &&
      ((Selection.ofSettings c.settings).found brokenDisk ⟨"/", ["work"]⟩).toOption.any fun found =>
        found = [⟨"/", ["work", "names.py"]⟩, ⟨"/", ["work", "broken.py"]⟩])
    (by decide +kernel)
  obtain ⟨hproblems, hfound⟩ := Bool.and_eq_true_iff.mp hc
  obtain ⟨found, hfound, heq⟩ := exists_ok_of_any hfound
  obtain rfl := of_decide_eq_true heq
  have hpath : Path.parse "/work" = ⟨"/", ["work"]⟩ := by decide +kernel
  have hresolve : brokenDisk.resolve ⟨"/", ["work"]⟩ = .ok ⟨"/", ["work"]⟩ := by decide +kernel
  have hdir : brokenDisk.isDir? ⟨"/", ["work"]⟩ = .ok true := by decide +kernel
  have hscan := (Selection.scanDirectory_eq_ok_iff hresolve).mpr
    ⟨by decide +kernel, hdir, _, hfound, rfl⟩
  have hselect := selectFiles_eq_ok_iff.mpr (.inr ⟨Disk.isFile?_of_isDir? hdir, hdir, hscan⟩)
  rw [← hpath] at hselect
  have hprepare := prepare_eq_ok_iff.mpr ⟨_, c, rfl, hopen, hproblems, rfl, hpath, hselect⟩
  exact ⟨c.settings, _, hprepare, by simp, by simp⟩

theorem run_of_unprocessable_sample :
    ∃ settings files,
      prepare brokenDisk (some "config.json") (some "/work") =
        .ok (settings, ⟨"/", ["work"]⟩, files) ∧
      ⟨"/", ["work", "names.py"]⟩ ∈ files ∧
      (∃ f ∈ files, Unprocessable settings brokenDisk ⟨"/", ["work"]⟩ files f) ∧
      ∃ lines, run (Review.consoleDesk brokenDisk ["y"]) ["config.json", "/work"] =
        ⟨1, (Review.consoleDesk brokenDisk ["y"]).say lines, []⟩ := by
  obtain ⟨settings, files, hprepare, hnames, hbroken⟩ := exists_prepare_brokenDisk
  have hfault : ∃ fault, Source.ofFile brokenDisk ⟨"/", ["work", "broken.py"]⟩ = .error fault :=
    exists_error_of_isNone (by decide +kernel)
  have hfailure : ∃ f ∈ files, Unprocessable settings brokenDisk ⟨"/", ["work"]⟩ files f :=
    ⟨_, hbroken, .inl hfault⟩
  have hargs : readArguments ["config.json", "/work"] =
      .ok (.process (some "config.json") (some "/work") false) := by decide +kernel
  exact ⟨settings, files, hprepare, hnames, hfailure,
    (run_of_unprocessable (Review.consoleDesk brokenDisk ["y"]) hargs hprepare).1 hfailure⟩

end Restyle.CommandLine

import Restyle.Proofs.Attempt
import Restyle.Proofs.Disk.Walk
import Restyle.Selection.Scan
import Restyle.Symbol.Analyze

/-!
Where selected files lie. A scan works with the path that a target resolves to, so it finds the same
files for the target and for the resolved path, and all of them lie below the resolved path. The
names of modules can be told exactly if files lie below the directory that the names start from.
-/

namespace Restyle

/-! ### Resolved paths -/

namespace Disk

namespace Path

theorem not_mem_collapse (names : List String) : ".." ∉ collapse names := by
  have hfold (done : List String) (h : ".." ∉ done) :
      ".." ∉ names.foldl (fun done n => if n = ".." then done.tail else n :: done) done := by
    induction names generalizing done with
    | nil => exact h
    | cons n names ih =>
      refine ih _ ?_
      dsimp only
      split
      · exact fun hmem => h (List.mem_of_mem_tail hmem)
      next hn => simpa using ⟨fun heq => hn heq.symm, h⟩
  simpa [collapse] using hfold [] (by simp)

theorem collapse_of_not_mem {names : List String} (h : ".." ∉ names) : collapse names = names := by
  have hfold (done : List String) :
      names.foldl (fun done n => if n = ".." then done.tail else n :: done) done =
        names.reverse ++ done := by
    induction names generalizing done with
    | nil => rfl
    | cons n names ih =>
      obtain ⟨hn, hnames⟩ := List.ne_and_not_mem_of_not_mem_cons h
      simp [ih hnames, hn.symm]
  simp [collapse, hfold]

/-- The path lies at or below another, by the spelling of the two. -/
def IsBelow (p base : Path) : Prop := p.root = base.root ∧ base.names <+: p.names

theorem exists_relativeTo_iff (p base : Path) :
    (∃ names, p.relativeTo base = .ok names) ↔ p.IsBelow base := by
  rw [relativeTo, IsBelow, ← List.isPrefixOf_iff_prefix]
  split
  next h => simpa using h
  next h => simpa using h

theorem isBelow_append (p : Path) (name : String) : (p ++ (⟨"", [name]⟩ : Path)).IsBelow p :=
  ⟨rfl, List.prefix_append _ _⟩

theorem IsBelow.trans {p q r : Path} (h : p.IsBelow q) (h' : q.IsBelow r) : p.IsBelow r :=
  ⟨h.1.trans h'.1, h'.2.trans h.2⟩

theorem isBelow_refl (p : Path) : p.IsBelow p := ⟨rfl, List.prefix_rfl⟩

theorem isBelow_parent (p : Path) : p.IsBelow p.parent := ⟨rfl, List.dropLast_prefix _⟩

end Path

/-- A resolved path has a root, and resolving it again changes nothing. -/
theorem resolve_of_resolve {d : Disk} {p q : Path} (h : d.resolve q = .ok p) :
    p.root = "/" ∧ d.resolve p = .ok p := by
  have hcollapsed : ∃ names, p = ⟨"/", Path.collapse names⟩ := by
    unfold resolve at h
    split at h
    · exact ⟨_, (Except.ok.inj h).symm⟩
    · split at h
      · exact ⟨_, (Except.ok.inj h).symm⟩
      · cases h
  obtain ⟨names, rfl⟩ := hcollapsed
  refine ⟨rfl, ?_⟩
  have hnames := Path.collapse_of_not_mem (Path.not_mem_collapse names)
  simp [resolve, Path.isAbsolute, hnames]

end Disk

/-! ### Modules -/

namespace Symbol

open Disk (Path)

theorem exists_moduleTables_iff (root : Path) (paths : List Path) :
    (∃ tables, moduleTables root paths = .ok tables) ↔ ∀ p ∈ paths, p.IsBelow root := by
  refine exists_foldlM_ok_iff ?_ paths _
  intro tables p
  rw [← Path.exists_relativeTo_iff, moduleName]
  cases p.relativeTo root <;> simp [Except.map, bind, Except.bind, pure, Except.pure]

/-- An analysis goes wrong exactly if a file lies outside the project. -/
theorem fault_analyze_iff [Dialect] (m : SymbolMap) (d : Disk) (root : Path) (paths : List Path) :
    (m.analyze d root paths).fault = none ↔ ∀ p ∈ paths, p.IsBelow root := by
  rw [← exists_moduleTables_iff, SymbolMap.analyze]
  cases moduleTables root paths <;> simp

end Symbol

/-! ### Scans -/

namespace Selection

open Disk (Path Node)

variable {s : Selection} {d : Disk} {p f : Path} {files : List Path}

theorem eq_of_mem_keep (h : s.keep p = .ok files) (hf : f ∈ files) : f = p := by
  unfold keep at h
  obtain ⟨selected, -, h⟩ := Except.bind_eq_ok.mp h
  cases selected with
  | true =>
    obtain rfl := Except.ok.inj h
    simpa using hf
  | false =>
    obtain rfl := Except.ok.inj h
    cases hf

/-- What is found in the entries of a directory: nothing or what is below the first one, and what
the others have. -/
theorem belowEntries_cons_eq_ok {name : String} {n : Node} {rest : List (String × Node)}
    (h : s.belowEntries d p ((name, n) :: rest) = .ok files) :
    ∃ here more, (here = [] ∨ s.below d (p ++ ⟨"", [name]⟩) n = .ok here) ∧
      s.belowEntries d p rest = .ok more ∧ files = here ++ more := by
  have hround : ∃ x : Except NotText (List Path),
      (x = .ok [] ∨ x = s.below d (p ++ ⟨"", [name]⟩) n) ∧
      (x >>= fun here => s.belowEntries d p rest >>= fun more => pure (here ++ more)) =
        .ok files := by
    rw [belowEntries] at h
    dsimp only at h
    split at h
    · obtain ⟨skipped, -, h⟩ := Except.bind_eq_ok.mp h
      split at h
      · exact ⟨_, .inl rfl, h⟩
      · exact ⟨_, .inr rfl, h⟩
    · exact ⟨_, .inr rfl, h⟩
  obtain ⟨x, hx, hround⟩ := hround
  obtain ⟨here, hhere, hround⟩ := Except.bind_eq_ok.mp hround
  obtain ⟨more, hmore, hround⟩ := Except.bind_eq_ok.mp hround
  refine ⟨here, more, ?_, hmore, (Except.ok.inj hround).symm⟩
  rcases hx with rfl | rfl
  · exact .inl (Except.ok.inj hhere).symm
  · exact .inr hhere

mutual

theorem isBelow_of_mem_below {p f : Path} {files : List Path} :
    ∀ {n : Node}, s.below d p n = .ok files → f ∈ files → f.IsBelow p
  | .file .., h, hf => by
    rw [below] at h
    rw [eq_of_mem_keep h hf]
    exact p.isBelow_refl
  | .dir mode entries, h, hf => by
    rw [below] at h
    split at h
    · obtain rfl := Except.ok.inj h
      cases hf
    · exact isBelow_of_mem_belowEntries h hf

theorem isBelow_of_mem_belowEntries {p f : Path} {files : List Path} :
    ∀ {entries : List (String × Node)},
      s.belowEntries d p entries = .ok files → f ∈ files → f.IsBelow p
  | [], h, hf => by
    obtain rfl := Except.ok.inj h
    cases hf
  | (name, n) :: rest, h, hf => by
    obtain ⟨here, more, hhere, hmore, rfl⟩ := belowEntries_cons_eq_ok h
    rcases List.mem_append.mp hf with hmem | hmem
    · rcases hhere with rfl | hhere
      · cases hmem
      · exact (isBelow_of_mem_below hhere hmem).trans (p.isBelow_append name)
    · exact isBelow_of_mem_belowEntries hmore hmem

end

theorem isBelow_of_mem_direct (h : s.direct d p = .ok files) (hf : f ∈ files) : f.IsBelow p := by
  unfold direct at h
  obtain ⟨names, -, h⟩ := Except.bind_eq_ok.mp h
  obtain ⟨found, hfound, h⟩ := Except.bind_eq_ok.mp h
  obtain rfl := Except.ok.inj h
  obtain ⟨here, hhere, hmem⟩ := List.mem_flatten.mp hf
  obtain ⟨name, -, hname⟩ := exists_of_mem_mapM hfound hhere
  obtain ⟨isFile, -, hname⟩ := Except.bind_eq_ok.mp hname
  cases isFile with
  | true =>
    rw [eq_of_mem_keep (Except.mapError_eq_ok.mp hname) hmem]
    exact p.isBelow_append name
  | false =>
    obtain rfl := Except.ok.inj hname
    cases hmem

def found (s : Selection) (d : Disk) (p : Path) : Except Fault (List Path) :=
  if !s.recursive then s.direct d p
  else match d.node p with
    | .ok n => (s.below d p n).mapError .notText
    | .error _ => .ok []

theorem isBelow_of_mem_found (h : s.found d p = .ok files) (hf : f ∈ files) : f.IsBelow p := by
  unfold found at h
  split at h
  · exact isBelow_of_mem_direct h hf
  · split at h
    · exact isBelow_of_mem_below (Except.mapError_eq_ok.mp h) hf
    · obtain rfl := Except.ok.inj h
      cases hf

/-- Selected files come from the path that was resolved, whatever the given one was. -/
theorem scanDirectory_eq_ok_iff {given : Path} (hp : d.resolve given = .ok p) :
    s.scanDirectory d given = .ok files ↔
      d.exists? p = .ok true ∧ d.isDir? p = .ok true ∧
        ∃ found, s.found d p = .ok found ∧ found.mergeSort Path.le = files := by
  rw [scanDirectory, hp]
  unfold found
  cases s.recursive with
  | false => simp [Except.bind_eq_ok, Except.mapError_eq_ok, pure, Except.pure]
  | true =>
    cases hnode : d.node p <;>
      simp [hnode, Except.bind_eq_ok, Except.mapError_eq_ok, pure, Except.pure]

theorem scanFile_eq_ok_iff {given : Path} (hp : d.resolve given = .ok p) :
    s.scanFile d given = .ok files ↔
      d.exists? p = .ok true ∧ d.isFile? p = .ok true ∧ s.keep p = .ok files := by
  rw [scanFile, hp]
  simp [Except.bind_eq_ok, Except.mapError_eq_ok]

/-- A scan of the resolved path finds the same files, and all of them lie below it. -/
theorem scanDirectory_resolved {given : Path} (hp : d.resolve given = .ok p)
    (h : s.scanDirectory d given = .ok files) :
    d.isDir? p = .ok true ∧ s.scanDirectory d p = .ok files ∧ ∀ f ∈ files, f.IsBelow p := by
  have hscan := (scanDirectory_eq_ok_iff hp).mp h
  have hagain := (scanDirectory_eq_ok_iff (Disk.resolve_of_resolve hp).2).mpr hscan
  obtain ⟨-, hdir, found, hfound, rfl⟩ := hscan
  refine ⟨hdir, hagain, ?_⟩
  intro f hf
  exact isBelow_of_mem_found hfound (List.mem_mergeSort.mp hf)

theorem scanFile_resolved {given : Path} (hp : d.resolve given = .ok p)
    (h : s.scanFile d given = .ok files) :
    d.isFile? p = .ok true ∧ s.scanFile d p = .ok files ∧ ∀ f ∈ files, f = p := by
  have hscan := (scanFile_eq_ok_iff hp).mp h
  have hagain := (scanFile_eq_ok_iff (Disk.resolve_of_resolve hp).2).mpr hscan
  obtain ⟨-, hfile, hkeep⟩ := hscan
  refine ⟨hfile, hagain, ?_⟩
  intro f hf
  exact eq_of_mem_keep hkeep hf

end Selection

end Restyle

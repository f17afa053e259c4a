import Restyle.Proofs.Disk.Operations
import Restyle.Proofs.Selection.Scan

/-!
Which files a scan selects. The patterns say which files are wanted and which directories are not
gone into, and a scan comes to every file that is not behind such a directory. The main statement is
about a directory that is open with all directories below it: a scan finds the wanted files of this
kind and no others, each once and in the order of their paths.
-/

namespace Restyle

/-! ### Paths below a path -/

namespace Disk.Path

variable {p f : Path} {name name' : String}

theorem append_nil (p : Path) : p ++ (⟨"", []⟩ : Path) = p := by
  change (⟨p.root, p.names ++ []⟩ : Path) = p
  rw [List.append_nil]

theorem append_cons (p : Path) (name : String) (names : List String) :
    p ++ (⟨"", name :: names⟩ : Path) = p ++ (⟨"", [name]⟩ : Path) ++ (⟨"", names⟩ : Path) := by
  change (⟨p.root, p.names ++ name :: names⟩ : Path) = ⟨p.root, p.names ++ [name] ++ names⟩
  rw [List.append_assoc, List.singleton_append]

theorem eq_of_isBelow_append (h : f.IsBelow (p ++ (⟨"", [name]⟩ : Path)))
    (h' : f.IsBelow (p ++ (⟨"", [name']⟩ : Path))) : name = name' := by
  have hlength : (p.names ++ [name]).length = (p.names ++ [name']).length := by simp
  have heq : p.names ++ [name] = p.names ++ [name'] :=
    (List.prefix_of_prefix_length_le h.2 h'.2 (Nat.le_of_eq hlength)).eq_of_length hlength
  simpa using heq

end Disk.Path

namespace Selection

open Disk (Path Node Mode)

/-! ### Patterns -/

/-- A pattern covers a path: it has the form of the whole path, of its name, or of its last parts
with slashes between them. -/
def Covers (pattern : String) (p : Path) : Prop :=
  globMatches pattern p.text = true ∨ globMatches pattern p.name = true ∨
    ∃ parts, parts ≠ [] ∧ parts <:+ p.parts ∧
      globMatches pattern (String.intercalate "/" parts) = true

def Covered (patterns : List String) (p : Path) : Prop := ∃ pattern ∈ patterns, Covers pattern p

def ofPatterns (includes excludes : List String) (recursive : Bool) : Selection :=
  ⟨includes.map .str, excludes.map .str, recursive⟩

section Patterns

variable {includes excludes patterns : List String} {recursive : Bool} {p : Path}

theorem any_spellings_iff {pattern : String} :
    (spellings p).any (globMatches pattern) = true ↔ Covers pattern p := by
  have hends : (∃ i < p.parts.length,
        globMatches pattern (String.intercalate "/" (p.parts.drop i)) = true) ↔
      ∃ parts, parts ≠ [] ∧ parts <:+ p.parts ∧
        globMatches pattern (String.intercalate "/" parts) = true := by
    constructor
    · rintro ⟨i, hi, hmatch⟩
      refine ⟨p.parts.drop i, ?_, List.drop_suffix i p.parts, hmatch⟩
      simpa [List.drop_eq_nil_iff] using hi
    · rintro ⟨parts, hne, hsuffix, hmatch⟩
      have hlength := hsuffix.length_le
      have hpos := List.length_pos_iff.mpr hne
      refine ⟨p.parts.length - parts.length, by omega, ?_⟩
      rwa [← List.suffix_iff_eq_drop.mp hsuffix]
  rw [Covers, ← hends]
  simp [spellings]

theorem any_any_spellings_iff :
    (patterns.any fun s => (spellings p).any (globMatches s)) = true ↔ Covered patterns p := by
  simp only [List.any_eq_true (l := patterns), any_spellings_iff, Covered]

instance : Decidable (Covered patterns p) := decidable_of_iff _ any_any_spellings_iff

theorem matchesAny_map_str (p : Path) (patterns : List String) :
    matchesAny p (patterns.map .str) = .ok (decide (Covered patterns p)) := by
  induction patterns with
  | nil => rfl
  | cons pattern rest ih =>
    have hcons : Covered (pattern :: rest) p ↔ Covers pattern p ∨ Covered rest p := by
      simp [Covered]
    rw [List.map_cons, matchesAny, ih]
    split
    next hfits => simp [hcons, any_spellings_iff.mp hfits]
    next hfits => simp [hcons, mt any_spellings_iff.mpr hfits]

theorem keep_ofPatterns (includes excludes : List String) (recursive : Bool) (p : Path) :
    (ofPatterns includes excludes recursive).keep p =
      .ok (if ¬ Covered excludes p ∧ Covered includes p then [p] else []) := by
  rw [keep, selects, ofPatterns]
  simp only [matchesAny_map_str]
  by_cases hexcluded : Covered excludes p
  · simp [hexcluded, bind, Except.bind, pure, Except.pure]
  · by_cases hincluded : Covered includes p <;>
      simp [hexcluded, hincluded, bind, Except.bind, pure, Except.pure]

end Patterns

/-! ### Chosen files -/

/-- The names lead from a path, which has the node `n`, to a file that is wanted and not behind an
unwanted directory. -/
structure Chosen (includes excludes : List String) (p : Path) (n : Node) (names : List String) :
    Prop where
  isFile : ∃ mode content, n.get? names = some (.file mode content)
  included : Covered includes (p ++ (⟨"", names⟩ : Path))
  notExcluded : ¬ Covered excludes (p ++ (⟨"", names⟩ : Path))
  entered : ∀ above, above ≠ [] → above <+: names → above ≠ names →
    ¬ Covered excludes (p ++ (⟨"", above⟩ : Path))

/-- Whether all directories of a tree can be read and searched. -/
def isOpen (d : Disk) (n : Node) : Bool := n.everyDir fun m entries => !isClosed d (.dir m entries)

section Chosen

variable {includes excludes : List String} {p : Path} {mode m : Mode} {content : List UInt8}
  {entries : List (String × Node)} {names : List String}

theorem chosen_file :
    Chosen includes excludes p (.file mode content) names ↔
      names = [] ∧ ¬ Covered excludes p ∧ Covered includes p := by
  constructor
  · intro h
    cases names with
    | nil => exact ⟨rfl, Path.append_nil p ▸ h.notExcluded, Path.append_nil p ▸ h.included⟩
    | cons name names =>
      obtain ⟨mode', content', hfile⟩ := h.isFile
      cases hfile
  · rintro ⟨rfl, hexcluded, hincluded⟩
    refine ⟨⟨mode, content, rfl⟩, ?_, ?_, ?_⟩
    · rwa [Path.append_nil]
    · rwa [Path.append_nil]
    · intro above hne hprefix
      exact absurd (List.prefix_nil.mp hprefix) hne

/-- Names lead from a directory through one of its entries, and not through an unwanted
directory. -/
theorem chosen_dir :
    Chosen includes excludes p (.dir m entries) names ↔
      ∃ name rest child, names = name :: rest ∧ entries.lookup name = some child ∧
        (child.isDir = true → ¬ Covered excludes (p ++ (⟨"", [name]⟩ : Path))) ∧
        Chosen includes excludes (p ++ (⟨"", [name]⟩ : Path)) child rest := by
  constructor
  · intro h
    obtain ⟨mode, content, hfile⟩ := h.isFile
    cases names with
    | nil => cases hfile
    | cons name rest =>
      rw [Node.get?_cons] at hfile
      obtain ⟨child, hchild, hrest⟩ := Option.bind_eq_some_iff.mp hfile
      refine ⟨name, rest, child, rfl, hchild, ?_, ⟨mode, content, hrest⟩, ?_, ?_, ?_⟩
      · intro hdir
        -- something has to follow a directory, so it lies before the file
        refine h.entered [name] (List.cons_ne_nil _ _) ?_ ?_
        · exact (List.prefix_cons_inj name).mpr List.nil_prefix
        · rintro heq
          obtain rfl : [] = rest := (List.cons.inj heq).2
          cases hrest
          cases hdir
      · exact Path.append_cons p name rest ▸ h.included
      · exact Path.append_cons p name rest ▸ h.notExcluded
      · intro above _ hprefix hproper
        rw [← Path.append_cons]
        refine h.entered (name :: above) (List.cons_ne_nil _ _) ?_ ?_
        · exact (List.prefix_cons_inj name).mpr hprefix
        · exact fun heq => hproper (List.cons.inj heq).2
  · rintro ⟨name, rest, child, rfl, hchild, hdir, h⟩
    obtain ⟨mode, content, hfile⟩ := h.isFile
    refine ⟨⟨mode, content, ?_⟩, ?_, ?_, ?_⟩
    · rw [Node.get?_cons]
      exact Option.bind_eq_some_iff.mpr ⟨child, hchild, hfile⟩
    · exact Path.append_cons p name rest ▸ h.included
    · exact Path.append_cons p name rest ▸ h.notExcluded
    · intro above hne hprefix hproper
      rcases List.prefix_cons_iff.mp hprefix with rfl | ⟨below, rfl, hbelow⟩
      · exact absurd rfl hne
      have hproper : below ≠ rest := fun heq => hproper (heq ▸ rfl)
      cases below with
      | nil =>
        -- a directory, since there is more behind it
        refine hdir ?_
        cases child with
        | dir => rfl
        | file => exact absurd (chosen_file.mp h).1 hproper.symm
      | cons next below =>
        rw [Path.append_cons]
        exact h.entered _ (List.cons_ne_nil _ _) hbelow hproper

end Chosen

/-! ### Scans of everything below a path -/

section Below

variable {includes excludes : List String} {recursive : Bool} {d : Disk} {p f : Path} {n : Node}
  {name : String} {rest : List (String × Node)} {files here more : List Path} {s : Selection}

theorem belowEntries_cons
    (hhere : (ofPatterns includes excludes recursive).below d (p ++ (⟨"", [name]⟩ : Path)) n =
      .ok here)
    (hmore : (ofPatterns includes excludes recursive).belowEntries d p rest = .ok more) :
    (ofPatterns includes excludes recursive).belowEntries d p ((name, n) :: rest) =
      .ok ((if n.isDir = true ∧ Covered excludes (p ++ (⟨"", [name]⟩ : Path)) then [] else here) ++
        more) := by
  have hexcluded : matchesAny (p ++ (⟨"", [name]⟩ : Path))
      (ofPatterns includes excludes recursive).excludes = _ := matchesAny_map_str _ excludes
  rw [belowEntries]
  dsimp only
  rw [hexcluded, hhere, hmore]
  cases n.isDir with
  | false => simp [bind, Except.bind, pure, Except.pure]
  | true =>
    by_cases h : Covered excludes (p ++ (⟨"", [name]⟩ : Path)) <;>
      simp [h, bind, Except.bind, pure, Except.pure]

/-- What a scan is to find in the entries of a directory. -/
def ChosenIn (includes excludes : List String) (p : Path) (entries : List (String × Node))
    (f : Path) : Prop :=
  ∃ entry ∈ entries,
    (entry.2.isDir = true → ¬ Covered excludes (p ++ (⟨"", [entry.1]⟩ : Path))) ∧
    ∃ names, f = p ++ (⟨"", [entry.1]⟩ : Path) ++ (⟨"", names⟩ : Path) ∧
      Chosen includes excludes (p ++ (⟨"", [entry.1]⟩ : Path)) entry.2 names

theorem chosenIn_iff {m : Mode} {entries : List (String × Node)}
    (hnames : (entries.map (·.1)).Nodup) :
    ChosenIn includes excludes p entries f ↔
      ∃ names, f = p ++ (⟨"", names⟩ : Path) ∧
        Chosen includes excludes p (.dir m entries) names := by
  constructor
  · rintro ⟨⟨name, child⟩, hmem, hdir, names, rfl, h⟩
    refine ⟨name :: names, (Path.append_cons p name names).symm, ?_⟩
    exact chosen_dir.mpr
      ⟨name, names, child, rfl, (Table.lookup_eq_some_iff_mem hnames).mpr hmem, hdir, h⟩
  · rintro ⟨names, rfl, h⟩
    obtain ⟨name, rest, child, rfl, hchild, hdir, h⟩ := chosen_dir.mp h
    exact ⟨(name, child), Table.mem_of_lookup hchild, hdir, rest, Path.append_cons p name rest, h⟩

mutual

/-- A scan below an open node has a result, which holds the chosen files. -/
theorem exists_below (includes excludes : List String) (recursive : Bool) (d : Disk) :
    ∀ (p : Path) (n : Node), n.isSound = true → isOpen d n = true →
      ∃ files, (ofPatterns includes excludes recursive).below d p n = .ok files ∧
        ∀ f, f ∈ files ↔
          ∃ names, f = p ++ (⟨"", names⟩ : Path) ∧ Chosen includes excludes p n names
  | p, .file mode content, _, _ => by
    refine ⟨_, by rw [below, keep_ofPatterns], ?_⟩
    intro f
    simp only [chosen_file, List.mem_ite_nil_right, List.mem_singleton]
    constructor
    · rintro ⟨hchosen, rfl⟩
      exact ⟨[], (Path.append_nil f).symm, rfl, hchosen⟩
    · rintro ⟨names, rfl, rfl, hchosen⟩
      exact ⟨hchosen, Path.append_nil p⟩
  | p, .dir m entries, hsound, hopen => by
    obtain ⟨hclosed, hopenEntries⟩ := Node.everyDir_dir hopen
    obtain ⟨files, hfiles, hmem⟩ :=
      exists_belowEntries includes excludes recursive d p entries
        (fun entry => (Node.everyDir_dir hsound).2 entry.1 entry.2)
        (fun entry => hopenEntries entry.1 entry.2)
    refine ⟨files, ?_, ?_⟩
    · rw [below, if_neg (by simpa using hclosed)]
      exact hfiles
    · intro f
      rw [hmem, chosenIn_iff (Node.isSound_dir hsound).1]

theorem exists_belowEntries (includes excludes : List String) (recursive : Bool) (d : Disk) :
    ∀ (p : Path) (entries : List (String × Node)),
      (∀ entry ∈ entries, entry.2.isSound = true) →
      (∀ entry ∈ entries, isOpen d entry.2 = true) →
      ∃ files, (ofPatterns includes excludes recursive).belowEntries d p entries = .ok files ∧
        ∀ f, f ∈ files ↔ ChosenIn includes excludes p entries f
  | p, [], _, _ => ⟨[], rfl, by simp [ChosenIn]⟩
  | p, (name, n) :: rest, hsound, hopen => by
    obtain ⟨hsoundFirst, hsoundRest⟩ := List.forall_mem_cons.mp hsound
    obtain ⟨hopenFirst, hopenRest⟩ := List.forall_mem_cons.mp hopen
    obtain ⟨here, hhere, hmemHere⟩ :=
      exists_below includes excludes recursive d (p ++ (⟨"", [name]⟩ : Path)) n hsoundFirst
        hopenFirst
    obtain ⟨more, hmore, hmemMore⟩ :=
      exists_belowEntries includes excludes recursive d p rest hsoundRest hopenRest
    refine ⟨_, belowEntries_cons hhere hmore, ?_⟩
    intro f
    have hcons : ChosenIn includes excludes p ((name, n) :: rest) f ↔
        ((n.isDir = true → ¬ Covered excludes (p ++ (⟨"", [name]⟩ : Path))) ∧ f ∈ here) ∨
          f ∈ more := by
      rw [hmemHere, hmemMore]
      simp [ChosenIn]
    -- below an unwanted directory there is nothing, and nothing is chosen
    rw [hcons, List.mem_append]
    simp

end

theorem exists_isBelow_of_mem_belowEntries {entries : List (String × Node)}
    (h : s.belowEntries d p entries = .ok files) (hf : f ∈ files) :
    ∃ entry ∈ entries, f.IsBelow (p ++ (⟨"", [entry.1]⟩ : Path)) := by
  induction entries generalizing files with
  | nil =>
    obtain rfl := Except.ok.inj h
    cases hf
  | cons entry rest ih =>
    obtain ⟨here, more, hhere, hmore, rfl⟩ := belowEntries_cons_eq_ok h
    rcases List.mem_append.mp hf with hmem | hmem
    · rcases hhere with rfl | hhere
      · cases hmem
      · exact ⟨entry, List.mem_cons_self, isBelow_of_mem_below hhere hmem⟩
    · obtain ⟨other, hother, hbelow⟩ := ih hmore hmem
      exact ⟨other, List.mem_cons_of_mem entry hother, hbelow⟩

theorem nodup_of_keep (h : s.keep p = .ok files) : files.Nodup := by
  unfold keep at h
  obtain ⟨selected, -, h⟩ := Except.bind_eq_ok.mp h
  cases selected with
  | true =>
    obtain rfl := Except.ok.inj h
    exact List.nodup_singleton p
  | false =>
    obtain rfl := Except.ok.inj h
    exact List.nodup_nil

mutual

theorem nodup_below {p : Path} {files : List Path} :
    ∀ {n : Node}, n.isSound = true → s.below d p n = .ok files → files.Nodup
  | .file .., _, h => by
    rw [below] at h
    exact nodup_of_keep h
  | .dir m entries, hsound, h => by
    rw [below] at h
    split at h
    · obtain rfl := Except.ok.inj h
      exact List.nodup_nil
    · exact nodup_belowEntries (Node.isSound_dir hsound).1
        (fun entry => (Node.everyDir_dir hsound).2 entry.1 entry.2) h

theorem nodup_belowEntries {p : Path} {files : List Path} :
    ∀ {entries : List (String × Node)}, (entries.map (·.1)).Nodup →
      (∀ entry ∈ entries, entry.2.isSound = true) →
      s.belowEntries d p entries = .ok files → files.Nodup
  | [], _, _, h => by
    obtain rfl := Except.ok.inj h
    exact List.nodup_nil
  | (name, n) :: rest, hnames, hsound, h => by
    obtain ⟨hname, hnames⟩ := List.nodup_cons.mp hnames
    obtain ⟨hsoundFirst, hsoundRest⟩ := List.forall_mem_cons.mp hsound
    obtain ⟨here, more, hhere, hmore, rfl⟩ := belowEntries_cons_eq_ok h
    have hnodup := nodup_belowEntries hnames hsoundRest hmore
    rcases hhere with rfl | hhere
    · exact hnodup
    refine List.nodup_append.mpr ⟨nodup_below hsoundFirst hhere, hnodup, ?_⟩
    -- a file has one name at this depth, and the entries have different ones
    rintro f hf _ hf' rfl
    obtain ⟨entry, hentry, hbelow⟩ := exists_isBelow_of_mem_belowEntries hmore hf'
    have heq := Path.eq_of_isBelow_append (isBelow_of_mem_below hhere hf) hbelow
    exact hname (List.mem_map.mpr ⟨entry, hentry, heq.symm⟩)

end

end Below

/-! ### Scans of one directory -/

section Direct

variable {s : Selection} {d : Disk} {p : Path} {files : List Path}
  {entries : List (String × Node)}

/-- The path itself, if it leads to a selected file. -/
def keepFile (s : Selection) (d : Disk) (q : Path) : Except Fault (List Path) := do
  if ← (d.isFile? q).mapError .refused then (s.keep q).mapError .notText else return []

theorem belowEntries_file (s : Selection) (d : Disk) (p : Path) (name : String) (mode : Mode)
    (content : List UInt8) (rest : List (String × Node)) :
    s.belowEntries d p ((name, .file mode content) :: rest) =
      (s.keep (p ++ (⟨"", [name]⟩ : Path)) >>= fun here =>
        s.belowEntries d p rest >>= fun more => pure (here ++ more)) := by
  rw [belowEntries, below]
  rfl

/-- The files of a directory are what a scan would find below it without its directories. -/
theorem exists_mapM_keepFile
    (hfile : ∀ entry ∈ entries,
      d.isFile? (p ++ (⟨"", [entry.1]⟩ : Path)) = .ok entry.2.isFile)
    (h : s.belowEntries d p (entries.filter (·.2.isFile)) = .ok files) :
    ∃ found, ((entries.map (·.1)).mapM fun name => s.keepFile d (p ++ (⟨"", [name]⟩ : Path))) =
      .ok found ∧ found.flatten = files := by
  induction entries generalizing files with
  | nil =>
    obtain rfl := Except.ok.inj h
    exact ⟨[], rfl, rfl⟩
  | cons entry rest ih =>
    obtain ⟨name, n⟩ := entry
    obtain ⟨hfirst, hrest⟩ := List.forall_mem_cons.mp hfile
    rw [List.map_cons, List.mapM_cons, keepFile, hfirst]
    cases n with
    | dir m entries =>
      obtain ⟨found, hfound, rfl⟩ := ih hrest h
      exact ⟨[] :: found, by rw [hfound]; rfl, rfl⟩
    | file mode content =>
      rw [List.filter_cons_of_pos rfl, belowEntries_file] at h
      obtain ⟨here, hhere, h⟩ := Except.bind_eq_ok.mp h
      obtain ⟨more, hmore, h⟩ := Except.bind_eq_ok.mp h
      obtain rfl := Except.ok.inj h
      obtain ⟨found, hfound, rfl⟩ := ih hrest hmore
      exact ⟨here :: found, by rw [hhere, hfound]; rfl, rfl⟩

end Direct

/-! ### Order -/

section Order

theorem not_parts_lt_of_le {p q : Path} (h : Path.le p q = true) : ¬ q.parts < p.parts := by
  simpa [Path.le] using h

theorem pairwise_mergeSort_le (files : List Path) :
    (files.mergeSort Path.le).Pairwise fun f g => Path.le f g = true := by
  refine List.pairwise_mergeSort ?_ ?_ files
  · intro p q r hpq hqr
    have hpr : ¬ r.parts < p.parts :=
      List.le_trans (not_parts_lt_of_le hpq) (not_parts_lt_of_le hqr)
    simpa [Path.le] using hpr
  · intro p q
    have htotal : ¬ q.parts < p.parts ∨ ¬ p.parts < q.parts := List.le_total p.parts q.parts
    simpa [Path.le] using htotal

theorem eq_of_parts_eq {p q : Path} (hroot : p.root = "/") (hroot' : q.root = "/")
    (h : p.parts = q.parts) : p = q := by
  obtain ⟨root, names⟩ := p
  obtain ⟨root', names'⟩ := q
  obtain rfl : root = "/" := hroot
  obtain rfl : root' = "/" := hroot'
  have hnames : names = names' := by simpa [Path.parts] using h
  rw [hnames]

/-- Different paths from the root are sorted into increasing order. -/
theorem pairwise_mergeSort_lt {files : List Path} (hnodup : files.Nodup)
    (hroot : ∀ f ∈ files, f.root = "/") :
    (files.mergeSort Path.le).Pairwise fun f g => f.parts < g.parts := by
  have hperm := List.mergeSort_perm files Path.le
  have hne : (files.mergeSort Path.le).Pairwise (· ≠ ·) := hperm.nodup_iff.mpr hnodup
  refine ((pairwise_mergeSort_le files).and hne).imp_of_mem ?_
  rintro f g hf hg ⟨hle, hne⟩
  by_contra hlt
  have hparts : f.parts = g.parts := List.le_antisymm (not_parts_lt_of_le hle) hlt
  exact hne (eq_of_parts_eq (hroot f (hperm.mem_iff.mp hf)) (hroot g (hperm.mem_iff.mp hg)) hparts)

end Order

/-! ### Directories -/

section Directory

variable {includes excludes : List String} {recursive : Bool} {d : Disk} {given p f : Path}
  {m : Mode} {entries : List (String × Node)}

theorem exists_way {n : Node} (hroot : p.isAbsolute = true) (hnode : d.node p = .ok n) :
    ∃ place, Disk.Way d [] p.names place ∧ d.root.get? place = some n := by
  have hremoved : ¬ d.IsRemoved p := by
    rintro ⟨hrelative, -⟩
    rw [hroot] at hrelative
    cases hrelative
  obtain ⟨place, hplace, hget⟩ := (Disk.node_eq_ok_iff hremoved).mp hnode
  obtain ⟨start, hstart, hway⟩ := Disk.place_eq_ok_iff.mp hplace
  rw [Disk.start?, if_pos hroot] at hstart
  obtain rfl := Option.some.inj hstart
  exact ⟨place, hway, hget⟩

/-- On the disk of a file system the entries of a directory are found under their names. -/
theorem isFile?_of_entry (hsound : d.root.isSound = true) (hroot : p.isAbsolute = true)
    (hnode : d.node p = .ok (.dir m entries)) (hsearch : d.maySearch (.dir m entries) = true)
    {entry : String × Node} (hentry : entry ∈ entries) :
    d.isFile? (p ++ (⟨"", [entry.1]⟩ : Path)) = .ok entry.2.isFile := by
  obtain ⟨place, hway, hget⟩ := exists_way hroot hnode
  obtain ⟨hnodup, hnames⟩ := Node.isSound_dir (Node.isSound_of_get? hsound hget)
  have hlookup : entries.lookup entry.1 = some entry.2 :=
    (Table.lookup_eq_some_iff_mem hnodup).mpr hentry
  obtain ⟨⟨hup, hsize⟩, -⟩ : (entry.1 ≠ ".." ∧ entry.1.utf8ByteSize ≤ Disk.maxNameBytes) ∧
      '\x00' ∉ entry.1.toList := by
    simpa [Disk.isEntryName] using hnames entry hentry
  have hentryWay : Disk.Way d [] (p.names ++ [entry.1]) (place ++ [entry.1]) :=
    hway.append (.down hget hsearch hup hsize hlookup (.stop _))
  have hnull : (p ++ (⟨"", [entry.1]⟩ : Path)).hasNull = false := hentryWay.noNull hsound
  have hplace : d.place (p ++ (⟨"", [entry.1]⟩ : Path)) = .ok (place ++ [entry.1]) :=
    Disk.place_eq_ok_iff.mpr ⟨[], if_pos hroot, hentryWay⟩
  have hentryNode := Disk.node_of_place hplace
    ((Node.get?_concat_of_dir hget entry.1).trans hlookup)
  exact Disk.ask_of_node hnull hentryNode Node.isFile

theorem isOpen_dir (h : isOpen d (.dir m entries) = true) :
    d.mayRead (.dir m entries) = true ∧ d.maySearch (.dir m entries) = true := by
  simpa [isClosed] using (Node.everyDir_dir h).1

theorem chosenIn_filter_iff (hnames : (entries.map (·.1)).Nodup) :
    ChosenIn includes excludes p (entries.filter (·.2.isFile)) f ↔
      ∃ names, f = p ++ (⟨"", names⟩ : Path) ∧ names.length = 1 ∧
        Chosen includes excludes p (.dir m entries) names := by
  constructor
  · rintro ⟨⟨name, n⟩, hmem, hdir, names, rfl, h⟩
    obtain ⟨hmem, hfile⟩ := List.mem_filter.mp hmem
    cases n with
    | dir => cases hfile
    | file mode content =>
      obtain rfl := (chosen_file.mp h).1
      have hlookup := (Table.lookup_eq_some_iff_mem hnames).mpr hmem
      exact ⟨[name], Path.append_nil _, rfl, chosen_dir.mpr ⟨name, [], _, rfl, hlookup, hdir, h⟩⟩
  · rintro ⟨names, rfl, hlength, h⟩
    obtain ⟨name, rest, child, rfl, hchild, hdir, h⟩ := chosen_dir.mp h
    obtain rfl : rest = [] := by simpa using hlength
    obtain ⟨mode, content, hfile⟩ := h.isFile
    obtain rfl := Option.some.inj hfile
    refine ⟨(name, _), List.mem_filter.mpr ⟨Table.mem_of_lookup hchild, rfl⟩, hdir, [], ?_, h⟩
    exact (Path.append_nil _).symm

section OpenDirectory

variable (includes excludes : List String) (recursive : Bool)
    (hsound : d.root.isSound = true) (hroot : p.isAbsolute = true)
    (hnode : d.node p = .ok (.dir m entries)) (hopen : isOpen d (.dir m entries) = true)

include hsound hroot hnode hopen

theorem exists_direct :
    ∃ files, (ofPatterns includes excludes recursive).direct d p = .ok files ∧ files.Nodup ∧
      ∀ f, f ∈ files ↔ ∃ names, f = p ++ (⟨"", names⟩ : Path) ∧ names.length = 1 ∧
        Chosen includes excludes p (.dir m entries) names := by
  obtain ⟨place, -, hget⟩ := exists_way hroot hnode
  have hdirSound := Node.isSound_of_get? hsound hget
  obtain ⟨hread, hsearch⟩ := isOpen_dir hopen
  obtain ⟨hnames, -⟩ := Node.isSound_dir hdirSound
  have hsub : ∀ entry ∈ entries.filter (·.2.isFile), entry ∈ entries :=
    fun _ => List.mem_of_mem_filter
  have hsounds : ∀ entry ∈ entries.filter (·.2.isFile), entry.2.isSound = true :=
    fun entry h => (Node.everyDir_dir hdirSound).2 entry.1 entry.2 (hsub entry h)
  have hopens : ∀ entry ∈ entries.filter (·.2.isFile), isOpen d entry.2 = true :=
    fun entry h => (Node.everyDir_dir hopen).2 entry.1 entry.2 (hsub entry h)
  obtain ⟨files, hfiles, hmem⟩ :=
    exists_belowEntries includes excludes recursive d p _ hsounds hopens
  obtain ⟨found, hfound, rfl⟩ := exists_mapM_keepFile
    (fun entry => isFile?_of_entry hsound hroot hnode hsearch) hfiles
  have hlist : d.list p = .ok (entries.map (·.1)) := by simp [Disk.list, hnode, hread]
  refine ⟨found.flatten, ?_, nodup_belowEntries ?_ hsounds hfiles, ?_⟩
  · rw [direct, hlist]
    exact Except.bind_eq_ok.mpr ⟨_, rfl, Except.bind_eq_ok.mpr ⟨found, hfound, rfl⟩⟩
  · exact hnames.sublist (List.filter_sublist.map _)
  · intro f
    rw [hmem, chosenIn_filter_iff hnames]

theorem exists_found :
    ∃ files, (ofPatterns includes excludes recursive).found d p = .ok files ∧ files.Nodup ∧
      ∀ f, f ∈ files ↔ ∃ names, f = p ++ (⟨"", names⟩ : Path) ∧
        (recursive = false → names.length = 1) ∧
        Chosen includes excludes p (.dir m entries) names := by
  cases recursive with
  | false =>
    obtain ⟨files, hfiles, hnodup, hmem⟩ :=
      exists_direct includes excludes false hsound hroot hnode hopen
    exact ⟨files, hfiles, hnodup, by simpa using hmem⟩
  | true =>
    obtain ⟨place, -, hget⟩ := exists_way hroot hnode
    have hdirSound := Node.isSound_of_get? hsound hget
    obtain ⟨files, hfiles, hmem⟩ :=
      exists_below includes excludes true d p (.dir m entries) hdirSound hopen
    refine ⟨files, ?_, nodup_below hdirSound hfiles, by simpa using hmem⟩
    rw [found, hnode]
    exact Except.mapError_eq_ok.mpr hfiles

end OpenDirectory

/-- A scan of an open directory has a result. Its files are in increasing order, so each is there
once, and they are the chosen ones: of all files below the directory, or of those in it. -/
theorem scanDirectory_exact (includes excludes : List String) (recursive : Bool)
    (hsound : d.root.isSound = true) (hp : d.resolve given = .ok p)
    (hnode : d.node p = .ok (.dir m entries)) (hopen : isOpen d (.dir m entries) = true) :
    ∃ files, (ofPatterns includes excludes recursive).scanDirectory d given = .ok files ∧
      (files.Pairwise fun f g => f.parts < g.parts) ∧
      ∀ f, f ∈ files ↔ ∃ names, f = p ++ (⟨"", names⟩ : Path) ∧
        (recursive = false → names.length = 1) ∧
        Chosen includes excludes p (.dir m entries) names := by
  obtain ⟨hroot, -⟩ := Disk.resolve_of_resolve hp
  have habsolute : p.isAbsolute = true := by simp [Path.isAbsolute, hroot]
  obtain ⟨place, hway, -⟩ := exists_way habsolute hnode
  have hnull : p.hasNull = false := hway.noNull hsound
  obtain ⟨files, hfiles, hnodup, hmem⟩ :=
    exists_found includes excludes recursive hsound habsolute hnode hopen
  refine ⟨files.mergeSort Path.le, ?_, ?_, ?_⟩
  · refine (scanDirectory_eq_ok_iff hp).mpr ⟨?_, ?_, files, hfiles, rfl⟩
    · exact Disk.ask_of_node hnull hnode _
    · exact Disk.ask_of_node hnull hnode _
  · refine pairwise_mergeSort_lt hnodup ?_
    intro f hf
    obtain ⟨names, rfl, -⟩ := (hmem f).mp hf
    exact hroot
  · intro f
    rw [List.mem_mergeSort, hmem]

def appDirectory : Disk :=
  ⟨.dir .directory [("app", .dir .directory [
      ("venv", .dir .directory [("lib", .dir .directory [("c.py", .file .file [])])]),
      ("src", .dir .directory [("d.py", .file .file []), ("d.txt", .file .file [])])])],
    true, some ["app"]⟩

theorem scanDirectory_exact_sample :
    ∃ files,
      (ofPatterns ["*.py"] ["venv"] true).scanDirectory appDirectory ⟨"", []⟩ = .ok files ∧
        ⟨"/", ["app", "src", "d.py"]⟩ ∈ files ∧ ⟨"/", ["app", "venv", "lib", "c.py"]⟩ ∉ files := by
  have hp : appDirectory.resolve ⟨"", []⟩ = .ok ⟨"/", ["app"]⟩ := rfl
  obtain ⟨files, hfiles, -, hmem⟩ := scanDirectory_exact ["*.py"] ["venv"] true
    (by decide +kernel) hp rfl (by decide +kernel)
  refine ⟨files, hfiles, (hmem _).mpr ⟨["src", "d.py"], rfl, ?_, ⟨⟨_, _, rfl⟩, ?_, ?_, ?_⟩⟩, ?_⟩
  · intro h
    cases h
  · decide +kernel
  · decide +kernel
  · intro above hne hprefix hproper
    rcases List.prefix_cons_iff.mp hprefix with rfl | ⟨rest, rfl, hrest⟩
    · exact absurd rfl hne
    rcases List.prefix_cons_iff.mp hrest with rfl | ⟨last, rfl, hlast⟩
    · decide +kernel
    · obtain rfl := List.prefix_nil.mp hlast
      exact absurd rfl hproper
  · intro hfile
    obtain ⟨names, hnames, -, hchosen⟩ := (hmem _).mp hfile
    obtain rfl : ["venv", "lib", "c.py"] = names :=
      (List.cons.inj (congrArg Path.names hnames)).2
    exact hchosen.entered ["venv"] (by decide) (by decide) (by decide) (by decide +kernel)

end Directory

end Selection

end Restyle

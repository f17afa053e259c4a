import Restyle.Proofs.Attempt
import Restyle.Proofs.Disk.Contents

/-!
Operations on files, at paths whose last name stands in a directory that can be searched. Where an
operation succeeds it sets one entry of that directory, and where it fails the entry or the
permissions say why. All other paths of this kind lead to the same places afterwards. A file that
does not exist is created when it is opened, and is then the one file that the disk gains.
-/

namespace Restyle.Disk

open Node (setEntry)

section Places

variable {d : Disk} {p : Path} {start here mid names : List String}

theorem place_of_start? (h : d.start? p = some start) : d.place p = d.walk start p.names := by
  unfold start? at h
  unfold Disk.place
  split at h
  next habsolute =>
    obtain rfl := Option.some.inj h
    rw [if_pos habsolute]
  next hrelative => rw [if_neg hrelative, h]

/-- On the disk of a file system a path that leads somewhere has no null character. -/
theorem Way.noNull (h : Way d here names mid) (hsound : d.root.isSound = true) :
    (names.any fun name => name.toList.contains '\x00') = false := by
  induction h with
  | stop here => rfl
  | up _ _ _ ih =>
    rw [List.any_cons, ih]
    decide
  | down hdir _ _ _ hentry _ ih =>
    have hdirSound := Node.isSound_dir (Node.isSound_of_get? hsound hdir)
    have hname := hdirSound.2 _ (Table.mem_of_lookup hentry)
    have hnull := (Bool.and_eq_true_iff.mp hname).2
    rw [List.any_cons, ih, Bool.or_false]
    simpa using hnull

end Places

/-! ### Held paths -/

namespace Path

theorem names_append_single (p : Path) (name : String) :
    (p ++ (⟨"", [name]⟩ : Path)).names = p.names ++ [name] := rfl

theorem name_append_single (p : Path) (name : String) :
    (p ++ (⟨"", [name]⟩ : Path)).name = name := by
  simp [Path.name, names_append_single]

theorem parent_append_single (p : Path) (name : String) :
    (p ++ (⟨"", [name]⟩ : Path)).parent = p := by
  simp only [parent, names_append_single, List.dropLast_concat]
  rfl

end Path

/-- The path without its last name leads to a directory that can be searched, and the last name is
one that an entry can have. -/
structure Held (d : Disk) (p : Path) (here : List String) (m : Mode)
    (entries : List (String × Node)) : Prop where
  place : d.place p.parent = .ok here
  names : p.names = p.parent.names ++ [p.name]
  dir : d.root.get? here = some (.dir m entries)
  search : d.maySearch (.dir m entries) = true
  notUp : p.name ≠ ".."
  size : p.name.utf8ByteSize ≤ maxNameBytes

namespace Held

variable {d d' : Disk} {p : Path} {here : List String} {m : Mode}
  {entries : List (String × Node)} {n : Node}

section

variable (h : Held d p here m entries)

include h

theorem get?_eq : d.root.get? (here ++ [p.name]) = entries.lookup p.name :=
  Node.get?_concat_of_dir h.dir p.name

theorem place_eq :
    d.place p = if (entries.lookup p.name).isNone then .error .notFound
      else .ok (here ++ [p.name]) := by
  obtain ⟨start, hstart, hway⟩ := place_eq_ok_iff.mp h.place
  have hstart : d.start? p = some start := hstart
  rw [place_of_start? hstart, h.names, hway.walk_append, walk_cons_of_dir h.dir]
  simp [h.search, h.notUp, Nat.not_lt.mpr h.size, walk]

theorem place_of_entry (hentry : entries.lookup p.name = some n) :
    d.place p = .ok (here ++ [p.name]) := by
  rw [h.place_eq, hentry]
  rfl

theorem node_of_entry (hentry : entries.lookup p.name = some n) : d.node p = .ok n :=
  node_of_place (h.place_of_entry hentry) (h.get?_eq.trans hentry)

theorem node_of_none (hentry : entries.lookup p.name = none) : d.node p = .error .notFound := by
  have hcond : (!p.isAbsolute && d.cwd.isNone && p.names.isEmpty) = false := by
    rw [h.names]
    simp
  have hplace : d.place p = .error .notFound := by
    rw [h.place_eq, hentry]
    rfl
  rw [node, hcond, hplace]
  rfl

theorem node_eq_ok_iff : d.node p = .ok n ↔ entries.lookup p.name = some n := by
  cases hentry : entries.lookup p.name with
  | none => simp [h.node_of_none hentry]
  | some x => simp [h.node_of_entry hentry]

theorem node_parent : d.node p.parent = .ok (.dir m entries) :=
  node_of_place h.place h.dir

theorem holder_eq : d.holder p = .ok (here, .dir m entries, p.name) := by
  rw [holder, h.place]
  simp [bind, Except.bind, h.dir, h.search, Nat.not_lt.mpr h.size, pure, Except.pure]

theorem sibling {q : Path} (hparent : q.parent = p.parent)
    (hnames : q.names = q.parent.names ++ [q.name]) (hup : q.name ≠ "..")
    (hsize : q.name.utf8ByteSize ≤ maxNameBytes) : Held d q here m entries :=
  ⟨hparent ▸ h.place, hnames, h.dir, h.search, hup, hsize⟩

theorem of_keepsDirs (hkeeps : KeepsDirs d d') {entries' : List (String × Node)}
    (hdir' : d'.root.get? here = some (.dir m entries')) :
    Held d' p here m entries' where
  place := by
    obtain ⟨start, hstart, hway⟩ := place_eq_ok_iff.mp h.place
    refine place_eq_ok_iff.mpr ⟨start, ?_, hkeeps.way hway h.dir⟩
    rw [← hstart, start?, start?, hkeeps.cwd]
  names := h.names
  dir := hdir'
  search := by simpa [maySearch, Node.mode, hkeeps.enforced] using h.search
  notUp := h.notUp
  size := h.size

/-- After an entry of the directory is set, a path into the directory leads there with that entry
set. -/
theorem put {name : String} (hold : IsLeaf (entries.lookup name)) (new : Option Node) :
    Held (d.put (here ++ [name]) new) p here m (setEntry name new entries) :=
  h.of_keepsDirs (keepsDirs_put h.dir hold new) (get?_put_dir h.dir name new)

end

end Held

section Finding

variable {d opened : Disk} {p : Path} {here : List String} {n : Node} {mode : Mode}
  {content : List UInt8}

/-- The directory that holds the last name of a path is where the path without it leads. -/
theorem holder_eq_ok {dir : Node} {name : String} (h : d.holder p = .ok (here, dir, name)) :
    d.place p.parent = .ok here ∧ name = p.name ∧ p.name.utf8ByteSize ≤ maxNameBytes ∧
      d.root.get? here = some dir ∧ d.maySearch dir = true ∧ ∃ m entries, dir = .dir m entries := by
  unfold holder at h
  cases hplace : d.place p.parent with
  | error r => simp [hplace, bind, Except.bind] at h
  | ok place =>
    simp only [hplace, bind, Except.bind] at h
    split at h
    · cases h
    · cases h
    next n hnotFile hroot =>
      cases hsearch : d.maySearch n with
      | false => simp [hsearch] at h
      | true =>
        by_cases hsize : p.name.utf8ByteSize > maxNameBytes
        · simp [hsearch, hsize] at h
        · simp only [hsearch, hsize, Bool.not_true, Bool.false_eq_true, if_false] at h
          cases h
          refine ⟨rfl, rfl, Nat.not_lt.mp hsize, hroot, hsearch, ?_⟩
          cases dir with
          | file m content => exact absurd rfl (hnotFile m content)
          | dir m entries => exact ⟨m, entries, rfl⟩

theorem names_eq_concat (h : p.names ≠ []) : p.names = p.parent.names ++ [p.name] := by
  rw [Path.name, List.getLast?_eq_getLast_of_ne_nil h]
  exact (List.dropLast_append_getLast h).symm

/-- A path that leads somewhere is held by a directory, or leads upwards to one. -/
theorem held_of_node (hnames : p.names ≠ [])
    (h : d.node p = .ok n) :
    (∃ here m entries, Held d p here m entries ∧ entries.lookup p.name = some n) ∨
      p.name = ".." ∧ n.isDir = true := by
  have hremoved : ¬ d.IsRemoved p := fun hremoved => hnames hremoved.2.2
  have hconcat := names_eq_concat hnames
  obtain ⟨place, hplace, hroot⟩ := (node_eq_ok_iff hremoved).mp h
  obtain ⟨start, hstart, hway⟩ := place_eq_ok_iff.mp hplace
  rw [hconcat] at hway
  obtain ⟨here, hparent, hlast⟩ := hway.split
  have hplaceParent : d.place p.parent = .ok here := place_eq_ok_iff.mpr ⟨start, hstart, hparent⟩
  generalize hname : p.name = name at hlast
  cases hlast with
  | up hdir _ hrest =>
    cases hrest
    refine .inr ⟨rfl, ?_⟩
    cases n with
    | dir => rfl
    | file mode content =>
      rcases List.eq_nil_or_concat' here with rfl | ⟨above, last, rfl⟩
      · rw [List.dropLast_nil, hdir] at hroot
        cases hroot
      · rw [List.dropLast_concat] at hroot
        rw [Node.get?_file_append hroot (List.cons_ne_nil last [])] at hdir
        cases hdir
  | down hdir hsearch hup hsize hentry hrest =>
    cases hrest
    subst hname
    rw [Node.get?_concat_of_dir hdir] at hroot
    exact .inl ⟨here, _, _, ⟨hplaceParent, hconcat, hdir, hsearch, hup, hsize⟩, hroot⟩

theorem held_of_file (hnames : p.names ≠ []) (h : d.node p = .ok (.file mode content)) :
    ∃ here m entries, Held d p here m entries ∧
      entries.lookup p.name = some (.file mode content) := by
  rcases held_of_node hnames h with hheld | ⟨-, hdir⟩
  · exact hheld
  · cases hdir

theorem held_of_truncate (hnames : p.names ≠ []) (hup : p.name ≠ "..")
    (h : d.truncate p = .ok opened) : ∃ here m entries, Held d p here m entries := by
  unfold truncate at h
  split at h
  · cases h
  next here dir name hholder =>
    obtain ⟨hplace, -, hsize, hdir, hsearch, m, entries, rfl⟩ := holder_eq_ok hholder
    exact ⟨here, m, entries, hplace, names_eq_concat hnames, hdir, hsearch, hup, hsize⟩

/-- Where a path leads nowhere and is opened all the same, its directory has no such entry. -/
theorem held_of_missing (hmissing : ∀ n, d.node p ≠ .ok n) (h : d.truncate p = .ok opened) :
    ∃ here m entries, Held d p here m entries ∧ entries.lookup p.name = none := by
  obtain ⟨⟨here, dir, name⟩, hholder⟩ : ∃ x, d.holder p = .ok x := by
    unfold truncate at h
    split at h
    · cases h
    next hholder => exact ⟨_, hholder⟩
  obtain ⟨hplace, -, -, hdir, hsearch, m, entries, rfl⟩ := holder_eq_ok hholder
  have hnames : p.names ≠ [] := by
    intro hnil
    have hparent : p.parent = p := by
      cases p with
      | mk root names => simp [Path.parent, show names = [] from hnil]
    rw [hparent] at hplace
    exact hmissing _ (node_of_place hplace hdir)
  have hup : p.name ≠ ".." := by
    intro hup
    obtain ⟨start, hstart, hway⟩ := place_eq_ok_iff.mp hplace
    have hlast : Way d here [p.name] here.dropLast := hup ▸ .up hdir hsearch (.stop _)
    have hplace' : d.place p = .ok here.dropLast :=
      place_eq_ok_iff.mpr ⟨start, hstart, names_eq_concat hnames ▸ hway.append hlast⟩
    rcases List.eq_nil_or_concat' here with rfl | ⟨above, last, rfl⟩
    · exact hmissing _ (node_of_place hplace' hdir)
    · rw [List.dropLast_concat] at hplace'
      obtain ⟨x, hx⟩ := Node.exists_get?_of_append hdir
      exact hmissing _ (node_of_place hplace' hx)
  obtain ⟨here, m, entries, hheld⟩ := held_of_truncate hnames hup h
  refine ⟨here, m, entries, hheld, ?_⟩
  cases hentry : entries.lookup p.name with
  | none => rfl
  | some n => exact absurd (hheld.node_of_entry hentry) (hmissing n)

end Finding

/-! ### Operations -/

/-- The permissions of the file that is opened for writing at an entry of a directory. -/
def opening (d : Disk) (dir : Node) : Option Node → Except Reason Mode
  | none => if d.mayWrite dir then .ok .file else .error .denied
  | some (.file mode content) =>
    if d.mayWrite (.file mode content) then .ok mode else .error .denied
  | some (.dir ..) => .error .isDirectory

theorem isLeaf_of_opening {d : Disk} {dir : Node} {entry : Option Node} {mode : Mode}
    (h : d.opening dir entry = .ok mode) : IsLeaf entry := by
  cases entry with
  | none => rfl
  | some n =>
    cases n with
    | file => rfl
    | dir => cases h

/-- Where a copy of a file goes: to the target, or into it if the target is a directory. -/
def copyTarget (d : Disk) (source target : Path) : Path :=
  match d.node target with
  | .ok (.dir ..) => target ++ ⟨"", [source.name]⟩
  | _ => target

section Operations

variable {d : Disk} {p source target : Path} {here : List String} {m mode mode' : Mode}
  {entries : List (String × Node)} {content content' : List UInt8} {n : Node} {r : Reason}

/-- Opening a file empties or creates it, if the entry and the permissions allow it. -/
theorem truncate_eq (h : Held d p here m entries) :
    (∃ mode, d.opening (.dir m entries) (entries.lookup p.name) = .ok mode ∧
        d.truncate p = .ok (d.put (here ++ [p.name]) (some (.file mode [])))) ∨
      ∃ r, d.opening (.dir m entries) (entries.lookup p.name) = .error r ∧
        d.truncate p = .error (refuse p r) := by
  cases hentry : entries.lookup p.name with
  | none =>
    have hchild : (Node.dir m entries).child? p.name = none := hentry
    cases hwrite : d.mayWrite (.dir m entries) <;>
      simp [opening, truncate, h.holder_eq, hchild, hwrite, Disk.put]
  | some n =>
    have hchild : (Node.dir m entries).child? p.name = some n := hentry
    cases n with
    | dir => simp [opening, truncate, h.holder_eq, hchild]
    | file mode content =>
      cases hwrite : d.mayWrite (.file mode content) <;>
        simp [opening, truncate, h.holder_eq, hchild, hwrite, Disk.put]

theorem truncate_of_opening_ok (h : Held d p here m entries)
    (hopen : d.opening (.dir m entries) (entries.lookup p.name) = .ok mode) :
    d.truncate p = .ok (d.put (here ++ [p.name]) (some (.file mode []))) := by
  rcases truncate_eq h with ⟨mode', hopen', htruncate⟩ | ⟨r, hopen', -⟩
  · rw [hopen] at hopen'
    cases hopen'
    exact htruncate
  · rw [hopen] at hopen'
    cases hopen'

theorem truncate_of_opening_error (h : Held d p here m entries)
    (hopen : d.opening (.dir m entries) (entries.lookup p.name) = .error r) :
    d.truncate p = .error (refuse p r) := by
  rcases truncate_eq h with ⟨mode', hopen', -⟩ | ⟨r', hopen', htruncate⟩
  · rw [hopen] at hopen'
    cases hopen'
  · rw [hopen] at hopen'
    cases hopen'
    exact htruncate

theorem place_put (h : Held d p here m entries) (hold : IsLeaf (entries.lookup p.name))
    (mode : Mode) (content : List UInt8) :
    (d.put (here ++ [p.name]) (some (.file mode content))).place p = .ok (here ++ [p.name]) ∧
      (d.put (here ++ [p.name]) (some (.file mode content))).root.get? (here ++ [p.name]) =
        some (.file mode content) := by
  have hput := h.put hold (some (.file mode content))
  have hentry := Node.lookup_setEntry p.name (.file mode content) entries
  exact ⟨hput.place_of_entry hentry, hput.get?_eq.trans hentry⟩

theorem put_put (d : Disk) (place : List String) (x y : Node) :
    (d.put place (some x)).put place (some y) = d.put place (some y) := by
  simp [Disk.put, Node.set_set]

theorem fill_put (h : Held d p here m entries) (hold : IsLeaf (entries.lookup p.name)) :
    (d.put (here ++ [p.name]) (some (.file mode content))).fill p content' =
      d.put (here ++ [p.name]) (some (.file mode content')) := by
  obtain ⟨hplace, hroot⟩ := place_put h hold mode content
  unfold fill
  rw [hplace]
  dsimp only
  rw [hroot]
  exact put_put d _ _ _

/-- Writing to a file that does not exist creates it, and changes nothing else. -/
theorem gains_of_truncate {opened : Disk} (hmissing : ∀ n, d.node p ≠ .ok n)
    (h : d.truncate p = .ok opened) (content : List UInt8) :
    Gains d (opened.fill p content) p content := by
  obtain ⟨here, m, entries, hheld, hentry⟩ := held_of_missing hmissing h
  have hleaf : IsLeaf (entries.lookup p.name) := by
    rw [hentry]
    rfl
  rcases truncate_eq hheld with ⟨mode, hopen, htruncate⟩ | ⟨r, -, htruncate⟩
  · rw [htruncate] at h
    cases h
    obtain rfl : mode = .file := by
      rw [hentry, opening] at hopen
      split at hopen <;> cases hopen
      rfl
    rw [fill_put hheld hleaf]
    obtain ⟨hplace, hfile⟩ := place_put hheld hleaf .file content
    exact ⟨rfl, rfl, here ++ [p.name], hplace, hheld.get?_eq.trans hentry, hfile,
      fun names => Node.rel_get?_set_file hheld.dir hentry .file content⟩
  · rw [htruncate] at h
    cases h

theorem setMode_put (h : Held d p here m entries) (hold : IsLeaf (entries.lookup p.name)) :
    (d.put (here ++ [p.name]) (some (.file mode content))).setMode p mode' =
      d.put (here ++ [p.name]) (some (.file mode' content)) := by
  obtain ⟨hplace, hroot⟩ := place_put h hold mode content
  unfold setMode
  rw [hplace]
  dsimp only
  rw [hroot]
  exact put_put d _ _ _

theorem remove_of_mayWrite (h : Held d p here m entries)
    (hentry : entries.lookup p.name = some (.file mode content))
    (hwrite : d.mayWrite (.dir m entries) = true) :
    d.remove p = .ok (d.put (here ++ [p.name]) none) := by
  have hchild : (Node.dir m entries).child? p.name = some (.file mode content) := hentry
  simp [remove, h.holder_eq, hchild, hwrite, Disk.put]

theorem remove_denied (h : Held d p here m entries) (hentry : entries.lookup p.name = some n)
    (hwrite : d.mayWrite (.dir m entries) = false) :
    d.remove p = .error (refuse p .denied) := by
  have hchild : (Node.dir m entries).child? p.name = some n := hentry
  simp [remove, h.holder_eq, hchild, hwrite]

/-- A directory is not removed, whatever the permissions are. -/
theorem exists_remove_of_dir {m' : Mode} {entries' : List (String × Node)}
    (h : Held d p here m entries) (hentry : entries.lookup p.name = some (.dir m' entries')) :
    ∃ r, d.remove p = .error r := by
  have hchild : (Node.dir m entries).child? p.name = some (.dir m' entries') := hentry
  cases hwrite : d.mayWrite (.dir m entries) <;> simp [remove, h.holder_eq, hchild, hwrite]

/-! ### Copies -/

theorem read_of_file (hnode : d.node p = .ok (.file mode content))
    (hread : d.mayRead (.file mode content) = true) : d.read p = .ok content := by
  simp [read, hnode, hread]

theorem read_eq_ok (h : d.read p = .ok content) :
    ∃ mode, d.node p = .ok (.file mode content) ∧ d.mayRead (.file mode content) = true := by
  unfold read at h
  cases hnode : d.node p with
  | error r => simp [hnode] at h
  | ok n =>
    cases n with
    | dir m entries =>
      simp only [hnode] at h
      split at h <;> cases h
    | file mode content =>
      simp only [hnode] at h
      split at h
      · cases h
      next hread =>
        cases h
        exact ⟨mode, rfl, by simpa using hread⟩

theorem copy_eq (source target : Path) :
    d.copy source target = d.read source >>= fun content =>
      d.write (d.copyTarget source target) content >>= fun d' =>
        (d.node source).toOption.elim (.ok d') fun n =>
          .ok (d'.setMode (d.copyTarget source target) n.mode) := by
  unfold copy copyTarget
  cases d.node source <;> rfl

theorem copyTarget_cases (d : Disk) (source target : Path) :
    d.copyTarget source target = target ∨ ∃ m entries, d.node target = .ok (.dir m entries) := by
  unfold copyTarget
  split
  next m entries h => exact .inr ⟨m, entries, h⟩
  · exact .inl rfl

theorem copyTarget_of_dir (h : d.node target = .ok (.dir m entries)) (source : Path) :
    d.copyTarget source target = target ++ ⟨"", [source.name]⟩ := by
  rw [copyTarget, h]

theorem Held.copyTarget_of_isLeaf (h : Held d target here m entries)
    (hleaf : IsLeaf (entries.lookup target.name)) : d.copyTarget source target = target := by
  cases hentry : entries.lookup target.name with
  | none => rw [copyTarget, h.node_of_none hentry]
  | some n =>
    rw [hentry] at hleaf
    cases n with
    | file mode content => rw [copyTarget, h.node_of_entry hentry]
    | dir => cases hleaf

theorem copyTarget_of_file (h : d.node target = .ok (.file mode content)) :
    d.copyTarget source target = target := by
  rw [copyTarget, h]

theorem exists_copy_of_dir (hsource : d.node source = .ok (.dir m entries)) (target : Path) :
    ∃ r, d.copy source target = .error r := by
  rw [copy_eq]
  cases hread : d.read source with
  | error r => exact ⟨r, rfl⟩
  | ok content =>
    obtain ⟨mode, hnode, -⟩ := read_eq_ok hread
    rw [hsource] at hnode
    cases hnode

theorem copy_eq_ok {d' : Disk} (h : d.copy source target = .ok d') :
    ∃ mode content opened, d.node source = .ok (.file mode content) ∧
      d.mayRead (.file mode content) = true ∧
      d.truncate (d.copyTarget source target) = .ok opened := by
  rw [copy_eq] at h
  obtain ⟨content, hread, h⟩ := Except.bind_eq_ok.mp h
  obtain ⟨written, hwrite, -⟩ := Except.bind_eq_ok.mp h
  obtain ⟨mode, hnode, hread⟩ := read_eq_ok hread
  cases htruncate : d.truncate (d.copyTarget source target) with
  | error r =>
    rw [write, htruncate] at hwrite
    cases hwrite
  | ok opened => exact ⟨mode, content, opened, hnode, hread, rfl⟩

theorem copy_of_opening_ok (hsource : d.node source = .ok (.file mode content))
    (hread : d.mayRead (.file mode content) = true)
    (h : Held d (d.copyTarget source target) here m entries)
    (hopen : d.opening (.dir m entries) (entries.lookup (d.copyTarget source target).name) =
      .ok mode') :
    d.copy source target =
      .ok (d.put (here ++ [(d.copyTarget source target).name]) (some (.file mode content))) := by
  have hleaf := isLeaf_of_opening hopen
  rw [copy_eq, read_of_file hsource hread]
  change (d.write _ content >>= _) = _
  rw [write, truncate_of_opening_ok h hopen]
  change (Option.elim (d.node source).toOption _ _) = _
  rw [hsource]
  change Except.ok (setMode (fill _ _ content) _ mode) = _
  rw [fill_put h hleaf, setMode_put h hleaf]

theorem copy_of_opening_error (hsource : d.node source = .ok (.file mode content))
    (hread : d.mayRead (.file mode content) = true)
    (h : Held d (d.copyTarget source target) here m entries)
    (hopen : d.opening (.dir m entries) (entries.lookup (d.copyTarget source target).name) =
      .error r) :
    d.copy source target = .error (refuse (d.copyTarget source target) r) := by
  rw [copy_eq, read_of_file hsource hread]
  change (d.write _ content >>= _) = _
  rw [write, truncate_of_opening_error h hopen]
  rfl

end Operations

end Restyle.Disk

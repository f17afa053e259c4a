import Restyle.Output.Write
import Restyle.Proofs.Disk.Operations

/-!
Writing over the old file. The backup is a copy in the same directory, under a name that may be
taken. What a call comes to is said for every disk: which entry each step sets, and at which step
the permissions end it. From that follow when a call that fails leaves everything as it was, and
when a call that succeeds changes nothing but the file.
-/

namespace Restyle.Output

open Disk (Path Node Mode Sight Held IsLeaf sightOf)
open Disk.Node (setEntry lookup_setEntry lookup_setEntry_of_ne)

variable {m' : Mode} {entries' : List (String × Node)}

/-! ### The backup -/

section Backup

variable {d saved : Disk} {path : Path}

theorem name_backupPath (path : Path) : (backupPath path).name = path.name ++ ".backup" := by
  simp [backupPath, Path.withName, Path.name]

theorem parent_backupPath (path : Path) : (backupPath path).parent = path.parent := by
  simp [backupPath, Path.withName, Path.parent]

theorem names_backupPath (path : Path) :
    (backupPath path).names = path.names.dropLast ++ [path.name ++ ".backup"] := rfl

theorem name_backupPath_ne (path : Path) : (backupPath path).name ≠ path.name := by
  intro h
  have hlength := congrArg String.length h
  rw [name_backupPath, String.length_append] at hlength
  have hpositive : 0 < ".backup".length := by decide
  omega

theorem name_backupPath_ne_up (path : Path) : (backupPath path).name ≠ ".." := by
  intro h
  have hlast := congrArg (fun s => s.toList.getLast?) h
  simp [name_backupPath] at hlast

theorem lookup_backup (path : Path) (new : Option Node) (entries : List (String × Node)) :
    (setEntry path.name new entries).lookup (backupPath path).name =
      entries.lookup (backupPath path).name :=
  lookup_setEntry_of_ne (name_backupPath_ne path) new entries

theorem backupPath_noNull (h : path.hasNull = false) : (backupPath path).hasNull = false := by
  have hnames : ∀ n ∈ path.names, n.toList.contains '\x00' = false := by
    simpa [Path.hasNull] using h
  have hname : path.name.toList.contains '\x00' = false := by
    cases hlast : path.names.getLast? with
    | none => simp [Path.name, hlast]
    | some n => simpa [Path.name, hlast] using hnames n (List.mem_of_getLast? hlast)
  have hparents : ∀ n ∈ path.names.dropLast, n.toList.contains '\x00' = false :=
    fun n hn => hnames n ((List.dropLast_prefix path.names).subset hn)
  simp_all [Path.hasNull, names_backupPath]

end Backup

/-! ### The scene -/

/-- The path leads to a file, and its backup would stand in the same directory. -/
structure Scene (d : Disk) (path : Path) (here : List String) (m : Mode)
    (entries : List (String × Node)) (mode : Mode) (content : List UInt8) : Prop where
  file : Held d path here m entries
  backup : Held d (backupPath path) here m entries
  entry : entries.lookup path.name = some (.file mode content)
  fileNull : path.hasNull = false
  backupNull : (backupPath path).hasNull = false
  nodup : (entries.map (·.1)).Nodup

/-- What is in a file after it was opened and a text was written, if there is one. -/
def bytesOf (text : Option String) : List UInt8 := text.elim [] fun s => Text.encode s.toList

namespace Scene

variable {d : Disk} {path : Path} {here : List String} {m : Mode}
  {entries : List (String × Node)} {mode mode' : Mode} {content content' : List UInt8}

theorem place_ne (path : Path) (here : List String) :
    here ++ [(backupPath path).name] ≠ here ++ [path.name] := by
  intro h
  exact name_backupPath_ne path (List.singleton_inj.mp (List.append_cancel_left h))

theorem inside_ne : here ++ [(backupPath path).name] ++ [path.name] ≠ here ++ [path.name] := by
  intro h
  have hlength := congrArg List.length h
  simp at hlength

variable (h : Scene d path here m entries mode content)
include h

theorem node : d.node path = .ok (.file mode content) := h.file.node_of_entry h.entry

theorem isLeaf : IsLeaf (entries.lookup path.name) := by
  rw [h.entry]
  rfl

theorem contents_file : d.contents (here ++ [path.name]) = .file content := by
  rw [Disk.contents, h.file.get?_eq, h.entry]
  rfl

theorem update_file :
    Function.update d.contents (here ++ [path.name]) (.file content) = d.contents := by
  rw [← h.contents_file, Function.update_eq_self]

theorem contents_backup :
    d.contents (here ++ [(backupPath path).name]) =
      sightOf (entries.lookup (backupPath path).name) := by
  rw [Disk.contents, h.backup.get?_eq]

theorem put_file (content' : List UInt8) :
    Scene (d.put (here ++ [path.name]) (some (.file mode content'))) path here m
      (setEntry path.name (some (.file mode content')) entries) mode content' where
  file := h.file.put h.isLeaf _
  backup := h.backup.put h.isLeaf _
  entry := lookup_setEntry path.name _ entries
  fileNull := h.fileNull
  backupNull := h.backupNull
  nodup := Disk.Node.nodup_setEntry h.nodup _ _

theorem contents_put_file (content' : List UInt8) :
    (d.put (here ++ [path.name]) (some (.file mode content'))).contents =
      Function.update d.contents (here ++ [path.name]) (.file content') :=
  Disk.contents_put_file h.file.dir h.isLeaf mode content'

theorem put_backup (hold : IsLeaf (entries.lookup (backupPath path).name)) (mode' : Mode)
    (content' : List UInt8) :
    Scene (d.put (here ++ [(backupPath path).name]) (some (.file mode' content'))) path here m
      (setEntry (backupPath path).name (some (.file mode' content')) entries) mode content where
  file := h.file.put hold _
  backup := h.backup.put hold _
  entry := (lookup_setEntry_of_ne (name_backupPath_ne path).symm _ entries).trans h.entry
  fileNull := h.fileNull
  backupNull := h.backupNull
  nodup := Disk.Node.nodup_setEntry h.nodup _ _

theorem contents_remove_backup
    (hbackup : entries.lookup (backupPath path).name = some (.file mode' content')) :
    (d.put (here ++ [(backupPath path).name]) none).contents =
      Function.update d.contents (here ++ [(backupPath path).name]) .nothing :=
  Disk.contents_put_none h.backup.dir (hbackup ▸ rfl) h.nodup

theorem node_remove_backup
    (hbackup : entries.lookup (backupPath path).name = some (.file mode' content')) :
    (d.put (here ++ [(backupPath path).name]) none).node path = .ok (.file mode content) := by
  have hleaf : IsLeaf (entries.lookup (backupPath path).name) := hbackup ▸ rfl
  refine (h.file.put hleaf none).node_of_entry ?_
  exact (lookup_setEntry_of_ne (name_backupPath_ne path).symm none entries).trans h.entry

theorem contents_inside
    (hbackup : entries.lookup (backupPath path).name = some (.dir m' entries')) :
    d.contents (here ++ [(backupPath path).name] ++ [path.name]) =
      sightOf (entries'.lookup path.name) := by
  rw [Disk.contents, Node.get?_concat_of_dir (h.backup.get?_eq.trans hbackup)]

/-! ### Steps -/

theorem opening_file :
    d.opening (.dir m entries) (entries.lookup path.name) =
      if d.mayWrite (.file mode content) then .ok mode else .error .denied := by
  rw [h.entry]
  rfl

theorem writeText_of_mayWrite (hwrite : d.mayWrite (.file mode content) = true)
    (text : Option String) :
    ∃ outcome, writeText d path text =
        ⟨d.put (here ++ [path.name]) (some (.file mode (bytesOf text))), outcome⟩ ∧
      (∀ s, text = some s → outcome = .ok path) ∧
      (text = none → outcome = .error .noText) := by
  have hopen : d.opening (.dir m entries) (entries.lookup path.name) = .ok mode := by
    rw [h.opening_file, if_pos hwrite]
  have htruncate := Disk.truncate_of_opening_ok h.file hopen
  cases text with
  | none => exact ⟨_, by simp [writeText, h.fileNull, htruncate, bytesOf], by simp, fun _ => rfl⟩
  | some s =>
    refine ⟨.ok path, ?_, fun _ _ => rfl, by simp⟩
    simp [writeText, h.fileNull, htruncate, bytesOf, Disk.fill_put h.file h.isLeaf]

theorem writeText_of_denied (hwrite : d.mayWrite (.file mode content) = false)
    (text : Option String) : ∃ f, writeText d path text = ⟨d, .error f⟩ := by
  have hopen : d.opening (.dir m entries) (entries.lookup path.name) = .error .denied := by
    simp [h.opening_file, hwrite]
  have htruncate := Disk.truncate_of_opening_error h.file hopen
  exact ⟨.refused (Disk.refuse path .denied), by simp [writeText, h.fileNull, htruncate]⟩

theorem exists?_backup {n : Node} (hbackup : entries.lookup (backupPath path).name = some n) :
    d.exists? (backupPath path) = .ok true :=
  Disk.exists?_eq_true_iff.mpr ⟨h.backupNull, n, h.backup.node_of_entry hbackup⟩

theorem copyTarget_file (source : Path) :
    d.copyTarget source path = path := Disk.copyTarget_of_file h.node

theorem restore_of_dir (hbackup : entries.lookup (backupPath path).name = some (.dir m' entries'))
    (fault : WriteFault) : ∃ f, restore d path fault = ⟨d, .error f⟩ := by
  obtain ⟨r, hcopy⟩ := Disk.exists_copy_of_dir (h.backup.node_of_entry hbackup) path
  exact ⟨.refused r, by simp [restore, h.exists?_backup hbackup, hcopy]⟩

theorem held_copyTarget (source : Path) : Held d (d.copyTarget source path) here m entries := by
  rw [h.copyTarget_file]
  exact h.file

theorem restore_of_denied
    (hbackup : entries.lookup (backupPath path).name = some (.file mode' content'))
    (hread : d.mayRead (.file mode' content') = true)
    (hwrite : d.mayWrite (.file mode content) = false) (fault : WriteFault) :
    ∃ f, restore d path fault = ⟨d, .error f⟩ := by
  have hopen : d.opening (.dir m entries)
      (entries.lookup (d.copyTarget (backupPath path) path).name) = .error .denied := by
    simp [h.copyTarget_file, h.opening_file, hwrite]
  have hcopy := Disk.copy_of_opening_error (h.backup.node_of_entry hbackup) hread
    (h.held_copyTarget _) hopen
  exact ⟨.refused (Disk.refuse (d.copyTarget (backupPath path) path) .denied),
    by simp [restore, h.exists?_backup hbackup, hcopy]⟩

section Restore

variable (hbackup : entries.lookup (backupPath path).name = some (.file mode content'))
  (hread : d.mayRead (.file mode content') = true)
  (hwrite : d.mayWrite (.file mode content) = true)

include hbackup hread hwrite

theorem copy_backup :
    d.copy (backupPath path) path =
      .ok (d.put (here ++ [path.name]) (some (.file mode content'))) := by
  have hopen : d.opening (.dir m entries)
      (entries.lookup (d.copyTarget (backupPath path) path).name) = .ok mode := by
    simp [h.copyTarget_file, h.opening_file, hwrite]
  have hcopy := Disk.copy_of_opening_ok (h.backup.node_of_entry hbackup) hread
    (h.held_copyTarget _) hopen
  rwa [h.copyTarget_file] at hcopy

theorem restore_of_mayWrite (hdir : d.mayWrite (.dir m entries) = true) (fault : WriteFault) :
    restore d path fault = ⟨(d.put (here ++ [path.name]) (some (.file mode content'))).put
      (here ++ [(backupPath path).name]) none, .error fault⟩ := by
  have hremove := Disk.remove_of_mayWrite (h.put_file content').backup
    ((lookup_backup path _ entries).trans hbackup) hdir
  simp [restore, h.exists?_backup hbackup, h.copy_backup hbackup hread hwrite, hremove]

theorem restore_of_dir_denied (hdir : d.mayWrite (.dir m entries) = false) (fault : WriteFault) :
    ∃ f, restore d path fault =
      ⟨d.put (here ++ [path.name]) (some (.file mode content')), .error f⟩ := by
  have hremove := Disk.remove_denied (h.put_file content').backup
    ((lookup_backup path _ entries).trans hbackup) hdir
  exact ⟨.refused (Disk.refuse (backupPath path) .denied),
    by simp [restore, h.exists?_backup hbackup, h.copy_backup hbackup hread hwrite, hremove]⟩

end Restore

end Scene

/-! ### One call -/

/-- No backup is made: the path has no last name, or the file cannot be copied. -/
def Unsaved (d : Disk) (path : Path) : Prop :=
  path.names = [] ∨ ∀ saved, d.copy path (backupPath path) ≠ .ok saved

/-- What one call comes to. After the backup is made the file is written and the backup is removed,
or a part of this is left undone: the backup stays because the file or the directory may not be
written, or it went into a directory from which it does not come back. -/
inductive Ending (d : Disk) (path : Path) (text : Option String) : WriteResult → Prop
  | unsaved {f : WriteFault} (hunsaved : Unsaved d path) : Ending d path text ⟨d, .error f⟩
  | written {here : List String} {m : Mode} {entries : List (String × Node)} {mode : Mode}
      {content : List UInt8} {s : String} {d' : Disk}
      (hscene : Scene d path here m entries mode content)
      (hleaf : IsLeaf (entries.lookup (backupPath path).name)) (htext : text = some s)
      (hnode : d'.node path = .ok (.file mode (Text.encode s.toList)))
      (hcontents : d'.contents = Function.update (Function.update d.contents
        (here ++ [path.name]) (.file (Text.encode s.toList)))
        (here ++ [(backupPath path).name]) .nothing) :
      Ending d path text ⟨d', .ok path⟩
  | restored {here : List String} {m : Mode} {entries : List (String × Node)} {mode : Mode}
      {content : List UInt8} {f : WriteFault} {d' : Disk}
      (hscene : Scene d path here m entries mode content)
      (hleaf : IsLeaf (entries.lookup (backupPath path).name))
      (hfile : d.mayWrite (.file mode content) = true)
      (hdir : d.mayWrite (.dir m entries) = true)
      (hcontents : d'.contents =
        Function.update d.contents (here ++ [(backupPath path).name]) .nothing) :
      Ending d path text ⟨d', .error f⟩
  | backupStays {here : List String} {m : Mode} {entries : List (String × Node)} {mode : Mode}
      {content : List UInt8} {f : WriteFault} {d' : Disk}
      (hscene : Scene d path here m entries mode content)
      (hleaf : IsLeaf (entries.lookup (backupPath path).name))
      (hnew : entries.lookup (backupPath path).name = none → d.mayWrite (.dir m entries) = true)
      (hstays : d.mayWrite (.file mode content) = false ∨ d.mayWrite (.dir m entries) = false)
      (hcontents : d'.contents =
        Function.update d.contents (here ++ [(backupPath path).name]) (.file content)) :
      Ending d path text ⟨d', .error f⟩
  | astray {here : List String} {m m' : Mode} {entries entries' : List (String × Node)}
      {mode : Mode} {content : List UInt8} {f : WriteFault} {d' : Disk}
      (hscene : Scene d path here m entries mode content)
      (hbackup : entries.lookup (backupPath path).name = some (.dir m' entries'))
      (hcontents : d'.contents = Function.update (Function.update d.contents
        (here ++ [(backupPath path).name] ++ [path.name]) (.file content)) (here ++ [path.name])
        (.file (if d.mayWrite (.file mode content) then bytesOf text else content))) :
      Ending d path text ⟨d', .error f⟩

theorem writeInPlace_of_unsaved {d : Disk} {path : Path} (h : Unsaved d path)
    (text : Option String) : ∃ f, writeInPlace d path text = ⟨d, .error f⟩ := by
  rcases h with hnames | hcopy
  · exact ⟨.noName path, by simp [writeInPlace, hnames]⟩
  · cases hnames : path.names.isEmpty with
    | true => exact ⟨.noName path, by simp [writeInPlace, hnames]⟩
    | false =>
      cases hcopy' : d.copy path (backupPath path) with
      | ok saved => exact absurd hcopy' (hcopy saved)
      | error r => exact ⟨.refused r, by simp [writeInPlace, hnames, hcopy']⟩

section Steps

variable {d saved w d' : Disk} {path q : Path} {text : Option String} {f : WriteFault}
  {r : Disk.Refusal} (hnames : path.names ≠ [])
  (hcopy : d.copy path (backupPath path) = .ok saved)

include hnames hcopy

theorem writeInPlace_of_fault (hwritten : writeText saved path text = ⟨w, .error f⟩) :
    writeInPlace d path text = restore w path f := by
  simp [writeInPlace, hnames, hcopy, hwritten]

theorem writeInPlace_of_remove (hwritten : writeText saved path text = ⟨w, .ok q⟩)
    (hremove : w.remove (backupPath path) = .ok d') :
    writeInPlace d path text = ⟨d', .ok path⟩ := by
  simp [writeInPlace, hnames, hcopy, hwritten, hremove]

/-- A call that cannot remove the backup takes the text back, also one that has written it. -/
theorem exists_restore_of_not_remove {outcome : Except WriteFault Path}
    (hwritten : writeText saved path text = ⟨w, outcome⟩)
    (hremove : w.remove (backupPath path) = .error r) :
    ∃ f, writeInPlace d path text = restore w path f := by
  cases outcome with
  | error f => exact ⟨f, writeInPlace_of_fault hnames hcopy hwritten⟩
  | ok q => exact ⟨.refused r, by simp [writeInPlace, hnames, hcopy, hwritten, hremove]⟩

end Steps

section Call

variable {d saved : Disk} {path : Path} {here : List String} {m : Mode}
  {entries : List (String × Node)} {mode : Mode} {content : List UInt8}

/-- Where a backup is made the path leads to a file that can be read. -/
theorem scene_of_copy (hsound : d.root.isSound = true) (hnames : path.names ≠ [])
    (hcopy : d.copy path (backupPath path) = .ok saved) :
    ∃ here m entries mode content, Scene d path here m entries mode content ∧
      d.mayRead (.file mode content) = true := by
  obtain ⟨mode, content, opened, hnode, hread, htruncate⟩ := Disk.copy_eq_ok hcopy
  obtain ⟨here, m, entries, hheld, hentry⟩ := Disk.held_of_file hnames hnode
  have hbackupNames : (backupPath path).names ≠ [] := by simp [names_backupPath]
  have hsize : (backupPath path).name.utf8ByteSize ≤ Disk.maxNameBytes := by
    rcases Disk.copyTarget_cases d path (backupPath path) with htarget | ⟨m', es', hdir⟩
    · rw [htarget] at htruncate
      obtain ⟨_, _, _, hbackup⟩ :=
        Disk.held_of_truncate hbackupNames (name_backupPath_ne_up path) htruncate
      exact hbackup.size
    · rcases Disk.held_of_node hbackupNames hdir with ⟨_, _, _, hbackup, -⟩ | ⟨hup, -⟩
      · exact hbackup.size
      · exact absurd hup (name_backupPath_ne_up path)
  have hbackup : Held d (backupPath path) here m entries :=
    hheld.sibling (parent_backupPath path) (Disk.names_eq_concat hbackupNames)
      (name_backupPath_ne_up path) hsize
  have hnull : path.hasNull = false := by
    obtain ⟨start, -, hway⟩ := Disk.place_eq_ok_iff.mp (hheld.place_of_entry hentry)
    exact hway.noNull hsound
  have hnodup := (Node.isSound_dir (Node.isSound_of_get? hsound hheld.dir)).1
  exact ⟨here, m, entries, mode, content,
    ⟨hheld, hbackup, hentry, hnull, backupPath_noNull hnull, hnodup⟩, hread⟩

section

variable (hscene : Scene d path here m entries mode content)

include hscene

theorem saved_of_leaf (hread : d.mayRead (.file mode content) = true)
    (hleaf : IsLeaf (entries.lookup (backupPath path).name))
    (hcopy : d.copy path (backupPath path) = .ok saved) :
    saved = d.put (here ++ [(backupPath path).name]) (some (.file mode content)) ∧
      (entries.lookup (backupPath path).name = none → d.mayWrite (.dir m entries) = true) := by
  have htarget : d.copyTarget path (backupPath path) = backupPath path :=
    hscene.backup.copyTarget_of_isLeaf hleaf
  have hheld : Held d (d.copyTarget path (backupPath path)) here m entries := by
    rw [htarget]
    exact hscene.backup
  cases hopen : d.opening (.dir m entries)
      (entries.lookup (d.copyTarget path (backupPath path)).name) with
  | error r =>
    rw [Disk.copy_of_opening_error hscene.node hread hheld hopen] at hcopy
    cases hcopy
  | ok mode' =>
    rw [Disk.copy_of_opening_ok hscene.node hread hheld hopen, htarget] at hcopy
    refine ⟨(Except.ok.inj hcopy).symm, ?_⟩
    intro hnone
    rw [htarget, hnone, Disk.opening] at hopen
    split at hopen
    next hdir => exact hdir
    · cases hopen

theorem saved_of_dir (hread : d.mayRead (.file mode content) = true)
    (hbackup : entries.lookup (backupPath path).name = some (.dir m' entries'))
    (hcopy : d.copy path (backupPath path) = .ok saved) :
    IsLeaf (entries'.lookup path.name) ∧ saved =
      d.put (here ++ [(backupPath path).name] ++ [path.name]) (some (.file mode content)) := by
  have htarget := Disk.copyTarget_of_dir (hscene.backup.node_of_entry hbackup) path
  have hname : (d.copyTarget path (backupPath path)).name = path.name := by
    rw [htarget, Path.name_append_single]
  have hparent : (d.copyTarget path (backupPath path)).parent = backupPath path := by
    rw [htarget, Path.parent_append_single]
  have hnames : (d.copyTarget path (backupPath path)).names ≠ [] := by
    rw [htarget, Path.names_append_single]
    exact List.concat_ne_nil _ _
  -- a copy that succeeds has found the directory that it goes into
  have hheld : Held d (d.copyTarget path (backupPath path)) (here ++ [(backupPath path).name]) m'
      entries' := by
    obtain ⟨-, -, opened, -, -, htruncate⟩ := Disk.copy_eq_ok hcopy
    obtain ⟨here', m'', entries'', hheld⟩ :=
      Disk.held_of_truncate hnames (hname ▸ hscene.file.notUp) htruncate
    have hplace := hheld.place
    rw [hparent, hscene.backup.place_of_entry hbackup] at hplace
    obtain rfl := Except.ok.inj hplace
    have hdir := hheld.dir
    rw [hscene.backup.get?_eq, hbackup] at hdir
    cases hdir
    exact hheld
  cases hopen : d.opening (.dir m' entries')
      (entries'.lookup (d.copyTarget path (backupPath path)).name) with
  | error r =>
    rw [Disk.copy_of_opening_error hscene.node hread hheld hopen] at hcopy
    cases hcopy
  | ok mode' =>
    rw [Disk.copy_of_opening_ok hscene.node hread hheld hopen, hname] at hcopy
    rw [hname] at hopen
    exact ⟨Disk.isLeaf_of_opening hopen, (Except.ok.inj hcopy).symm⟩

theorem contents_rewritten (hleaf : IsLeaf (entries.lookup (backupPath path).name))
    (content' : List UInt8) :
    ((d.put (here ++ [(backupPath path).name]) (some (.file mode content))).put
        (here ++ [path.name]) (some (.file mode content'))).contents =
      Function.update (Function.update d.contents (here ++ [(backupPath path).name])
        (.file content)) (here ++ [path.name]) (.file content') := by
  rw [(hscene.put_backup hleaf mode content).contents_put_file,
    Disk.contents_put_file hscene.backup.dir hleaf]

theorem contents_restored (hleaf : IsLeaf (entries.lookup (backupPath path).name))
    (content' : List UInt8) :
    (((d.put (here ++ [(backupPath path).name]) (some (.file mode content))).put
        (here ++ [path.name]) (some (.file mode content'))).put
        (here ++ [path.name]) (some (.file mode content))).contents =
      Function.update d.contents (here ++ [(backupPath path).name]) (.file content) := by
  have hsaved := hscene.put_backup hleaf mode content
  rw [(hsaved.put_file content').contents_put_file, hsaved.contents_put_file,
    Function.update_idem, hsaved.update_file, Disk.contents_put_file hscene.backup.dir hleaf]

end

section Leaf

variable {text : Option String} (hscene : Scene d path here m entries mode content)
  (hread : d.mayRead (.file mode content) = true) (hnames : path.names ≠ [])
  (hleaf : IsLeaf (entries.lookup (backupPath path).name))
  (hcopy : d.copy path (backupPath path) = .ok saved)

include hscene hread hnames hleaf hcopy

theorem ending_of_file_denied (hfile : d.mayWrite (.file mode content) = false) :
    Ending d path text (writeInPlace d path text) := by
  obtain ⟨rfl, hnew⟩ := saved_of_leaf hscene hread hleaf hcopy
  have hsaved := hscene.put_backup hleaf mode content
  have hbackup := lookup_setEntry (backupPath path).name (.file mode content) entries
  obtain ⟨f, hwritten⟩ := hsaved.writeText_of_denied hfile text
  obtain ⟨f', hrestore⟩ := hsaved.restore_of_denied hbackup hread hfile f
  rw [writeInPlace_of_fault hnames hcopy hwritten, hrestore]
  exact .backupStays hscene hleaf hnew (.inl hfile)
    (Disk.contents_put_file hscene.backup.dir hleaf mode content)

theorem ending_of_dir_denied (hfile : d.mayWrite (.file mode content) = true)
    (hdir : d.mayWrite (.dir m entries) = false) :
    Ending d path text (writeInPlace d path text) := by
  obtain ⟨rfl, hnew⟩ := saved_of_leaf hscene hread hleaf hcopy
  have hsaved := hscene.put_backup hleaf mode content
  have hbackup := lookup_setEntry (backupPath path).name (.file mode content) entries
  obtain ⟨outcome, hwritten, -⟩ := hsaved.writeText_of_mayWrite hfile text
  have hw := hsaved.put_file (bytesOf text)
  have hwBackup := (lookup_backup path (some (.file mode (bytesOf text))) _).trans hbackup
  have hremove := Disk.remove_denied hw.backup hwBackup hdir
  obtain ⟨f, hcall⟩ := exists_restore_of_not_remove hnames hcopy hwritten hremove
  obtain ⟨f', hrestore⟩ := hw.restore_of_dir_denied hwBackup hread hfile hdir f
  rw [hcall, hrestore]
  exact .backupStays hscene hleaf hnew (.inr hdir) (contents_restored hscene hleaf (bytesOf text))

theorem ending_of_mayWrite (hfile : d.mayWrite (.file mode content) = true)
    (hdir : d.mayWrite (.dir m entries) = true) :
    Ending d path text (writeInPlace d path text) := by
  obtain ⟨rfl, -⟩ := saved_of_leaf hscene hread hleaf hcopy
  have hsaved := hscene.put_backup hleaf mode content
  have hbackup := lookup_setEntry (backupPath path).name (.file mode content) entries
  obtain ⟨outcome, hwritten, hok, hfault⟩ := hsaved.writeText_of_mayWrite hfile text
  have hw := hsaved.put_file (bytesOf text)
  have hwBackup := (lookup_backup path (some (.file mode (bytesOf text))) _).trans hbackup
  cases text with
  | none =>
    rw [hfault rfl] at hwritten
    rw [writeInPlace_of_fault hnames hcopy hwritten,
      hw.restore_of_mayWrite hwBackup hread hfile hdir]
    have hremoved := (hw.put_file content).contents_remove_backup
      ((lookup_backup path _ _).trans hwBackup)
    rw [contents_restored hscene hleaf, Function.update_idem] at hremoved
    exact .restored hscene hleaf hfile hdir hremoved
  | some s =>
    rw [hok s rfl] at hwritten
    have hremove := Disk.remove_of_mayWrite hw.backup hwBackup hdir
    have hremoved := hw.contents_remove_backup hwBackup
    rw [contents_rewritten hscene hleaf, Function.update_comm (Scene.place_ne path here),
      Function.update_idem] at hremoved
    rw [writeInPlace_of_remove hnames hcopy hwritten hremove]
    exact .written hscene hleaf rfl (hw.node_remove_backup hwBackup) hremoved

theorem ending_of_leaf : Ending d path text (writeInPlace d path text) := by
  cases hfile : d.mayWrite (.file mode content) with
  | false => exact ending_of_file_denied hscene hread hnames hleaf hcopy hfile
  | true =>
    cases hdir : d.mayWrite (.dir m entries) with
    | false => exact ending_of_dir_denied hscene hread hnames hleaf hcopy hfile hdir
    | true => exact ending_of_mayWrite hscene hread hnames hleaf hcopy hfile hdir

end Leaf

theorem scene_of_dir (hscene : Scene d path here m entries mode content)
    (hbackup : entries.lookup (backupPath path).name = some (.dir m' entries'))
    (hleaf : IsLeaf (entries'.lookup path.name)) (n : Node) :
    ∃ entries'' child, Scene (d.put (here ++ [(backupPath path).name] ++ [path.name]) (some n))
        path here m entries'' mode content ∧
      entries''.lookup (backupPath path).name = some (.dir m' child) := by
  have hdir := hscene.backup.get?_eq.trans hbackup
  have hkeeps := Disk.keepsDirs_put hdir hleaf (some n)
  have hhere : (d.put (here ++ [(backupPath path).name] ++ [path.name]) (some n)).root.get? here =
      some (.dir m (setEntry (backupPath path).name
        (some (.dir m' (setEntry path.name (some n) entries'))) entries)) := by
    rw [List.append_assoc]
    refine (Node.get?_set_above hscene.file.dir (by simp) (some n)).trans ?_
    rw [List.singleton_append, Node.set_below hbackup (by simp)]
    rfl
  refine ⟨_, setEntry path.name (some n) entries', ?_, lookup_setEntry _ _ entries⟩
  exact
    { file := hscene.file.of_keepsDirs hkeeps hhere
      backup := hscene.backup.of_keepsDirs hkeeps hhere
      entry := (lookup_setEntry_of_ne (name_backupPath_ne path).symm _ entries).trans hscene.entry
      fileNull := hscene.fileNull
      backupNull := hscene.backupNull
      nodup := Node.nodup_setEntry hscene.nodup _ _ }

theorem ending_of_dir (hscene : Scene d path here m entries mode content)
    (hread : d.mayRead (.file mode content) = true) (hnames : path.names ≠ [])
    (hbackup : entries.lookup (backupPath path).name = some (.dir m' entries'))
    (hcopy : d.copy path (backupPath path) = .ok saved) (text : Option String) :
    Ending d path text (writeInPlace d path text) := by
  obtain ⟨hleaf, rfl⟩ := saved_of_dir hscene hread hbackup hcopy
  obtain ⟨entries'', child, hsaved, hdir⟩ := scene_of_dir hscene hbackup hleaf (.file mode content)
  have hcontents := Disk.contents_put_file (hscene.backup.get?_eq.trans hbackup) hleaf mode content
  cases hfile : d.mayWrite (.file mode content) with
  | false =>
    obtain ⟨f, hwritten⟩ := hsaved.writeText_of_denied hfile text
    obtain ⟨f', hrestore⟩ := hsaved.restore_of_dir hdir f
    rw [writeInPlace_of_fault hnames hcopy hwritten, hrestore]
    refine .astray hscene hbackup ?_
    rw [hfile, ← hcontents]
    exact hsaved.update_file.symm
  | true =>
    obtain ⟨outcome, hwritten, -⟩ := hsaved.writeText_of_mayWrite hfile text
    have hw := hsaved.put_file (bytesOf text)
    have hwDir := (lookup_backup path (some (.file mode (bytesOf text))) _).trans hdir
    have hwContents := hsaved.contents_put_file (bytesOf text)
    rw [hcontents] at hwContents
    obtain ⟨r, hremove⟩ := Disk.exists_remove_of_dir hw.backup hwDir
    obtain ⟨f, hcall⟩ := exists_restore_of_not_remove hnames hcopy hwritten hremove
    obtain ⟨f', hrestore⟩ := hw.restore_of_dir hwDir f
    rw [hcall, hrestore]
    exact .astray hscene hbackup (by rw [hwContents, if_pos hfile])

/-- Every call comes to one of these ends. -/
theorem ending_writeInPlace (hsound : d.root.isSound = true) (path : Path)
    (text : Option String) : Ending d path text (writeInPlace d path text) := by
  by_cases hunsaved : Unsaved d path
  · obtain ⟨f, hcall⟩ := writeInPlace_of_unsaved hunsaved text
    rw [hcall]
    exact .unsaved hunsaved
  · rw [Unsaved, not_or, not_forall] at hunsaved
    obtain ⟨hnames, saved, hcopy⟩ := hunsaved
    have hcopy := not_not.mp hcopy
    obtain ⟨here, m, entries, mode, content, hscene, hread⟩ := scene_of_copy hsound hnames hcopy
    cases hbackup : entries.lookup (backupPath path).name with
    | none => exact ending_of_leaf hscene hread hnames (hbackup ▸ rfl) hcopy
    | some n =>
      cases n with
      | file => exact ending_of_leaf hscene hread hnames (hbackup ▸ rfl) hcopy
      | dir => exact ending_of_dir hscene hread hnames hbackup hcopy text

end Call

/-! ### Calls that fail -/

/-- The ways in which a call fails without a trace. -/
inductive Traceless (d : Disk) (path : Path) (text : Option String) : Prop
  /-- No backup is made. -/
  | unsaved (hunsaved : Unsaved d path)
  /-- The file can be restored from a backup that takes the place of nothing. -/
  | restored {mode : Mode} {content : List UInt8} (hfile : d.node path = .ok (.file mode content))
      (hwrite : d.mayWrite (.file mode content) = true)
      (hnew : d.exists? (backupPath path) = .ok false)
  /-- The backup is left behind in the place of a file with the same content. -/
  | sameBackup {mode mode' : Mode} {content : List UInt8}
      (hfile : d.node path = .ok (.file mode content))
      (hbackup : d.node (backupPath path) = .ok (.file mode' content))
      (hstays : d.mayWrite (.file mode content) = false ∨
        ∃ dir, d.node path.parent = .ok dir ∧ d.mayWrite dir = false)
  /-- A directory in the place of the backup has the same file in it, and the file is not written or
  has this text already. -/
  | sameInside {mode mode' : Mode} {content : List UInt8} {dir : Node}
      (hfile : d.node path = .ok (.file mode content))
      (hdir : d.node (backupPath path) = .ok dir)
      (hinside : dir.child? path.name = some (.file mode' content))
      (htext : d.mayWrite (.file mode content) = true → bytesOf text = content)

namespace Scene

variable {d : Disk} {path : Path} {here : List String} {m : Mode}
  {entries : List (String × Node)} {mode : Mode} {content : List UInt8}

theorem exists?_eq_false_iff (h : Scene d path here m entries mode content) :
    d.exists? (backupPath path) = .ok false ↔
      entries.lookup (backupPath path).name = none := by
  cases hbackup : entries.lookup (backupPath path).name with
  | none => simp [Disk.exists?, Disk.ask, h.backupNull, h.backup.node_of_none hbackup]
  | some n => simp [h.exists?_backup hbackup]

/-- What a call without a trace says about the entries of the directory. -/
theorem cases_of_traceless (h : Scene d path here m entries mode content) {text : Option String}
    (hsaved : ¬ Unsaved d path) (htraceless : Traceless d path text) :
    (entries.lookup (backupPath path).name = none ∧ d.mayWrite (.file mode content) = true) ∨
      (∃ mode', entries.lookup (backupPath path).name = some (.file mode' content) ∧
        (d.mayWrite (.file mode content) = false ∨ d.mayWrite (.dir m entries) = false)) ∨
      ∃ m' entries' mode', entries.lookup (backupPath path).name = some (.dir m' entries') ∧
        entries'.lookup path.name = some (.file mode' content) ∧
        (d.mayWrite (.file mode content) = true → bytesOf text = content) := by
  cases htraceless with
  | unsaved hunsaved => exact absurd hunsaved hsaved
  | restored hfile hwrite hnew =>
    cases h.node.symm.trans hfile
    exact .inl ⟨h.exists?_eq_false_iff.mp hnew, hwrite⟩
  | @sameBackup _ mode' _ hfile hbackup hstays =>
    cases h.node.symm.trans hfile
    refine .inr (.inl ⟨mode', h.backup.node_eq_ok_iff.mp hbackup, hstays.imp_right ?_⟩)
    rintro ⟨dir, hparent, hdenied⟩
    cases h.file.node_parent.symm.trans hparent
    exact hdenied
  | @sameInside _ mode' _ dir hfile hdir hinside htext =>
    cases h.node.symm.trans hfile
    cases dir with
    | file => cases hinside
    | dir m' entries' =>
      exact .inr (.inr ⟨m', entries', mode', h.backup.node_eq_ok_iff.mp hdir, hinside, htext⟩)

end Scene

theorem sightOf_eq_nothing {o : Option Node} (h : sightOf o = .nothing) : o = none := by
  cases o with
  | none => rfl
  | some n => cases n <;> cases h

theorem sightOf_eq_file {o : Option Node} {content : List UInt8} (h : sightOf o = .file content) :
    ∃ mode, o = some (.file mode content) := by
  cases o with
  | none => cases h
  | some n =>
    cases n with
    | file mode content' =>
      cases h
      exact ⟨mode, rfl⟩
    | dir => cases h

section Failed

variable {d : Disk} {path : Path} {text : Option String} {w : WriteResult} {f : WriteFault}

theorem Ending.traceless (h : Ending d path text w) (hfault : w.outcome = .error f)
    (hsame : w.disk.contents = d.contents) : Traceless d path text := by
  cases h with
  | unsaved hunsaved => exact .unsaved hunsaved
  | written => cases hfault
  | restored hscene _ hfile _ hcontents =>
    have hnothing := Function.update_eq_self_iff.mp (hcontents.symm.trans hsame)
    rw [hscene.contents_backup] at hnothing
    exact .restored hscene.node hfile
      (hscene.exists?_eq_false_iff.mpr (sightOf_eq_nothing hnothing.symm))
  | backupStays hscene _ _ hstays hcontents =>
    have hfile := Function.update_eq_self_iff.mp (hcontents.symm.trans hsame)
    rw [hscene.contents_backup] at hfile
    obtain ⟨mode', hbackup⟩ := sightOf_eq_file hfile.symm
    refine .sameBackup hscene.node (hscene.backup.node_of_entry hbackup) ?_
    exact hstays.imp_right fun hdir => ⟨_, hscene.file.node_parent, hdir⟩
  | @astray here _ _ _ _ _ _ _ _ hscene hbackup hcontents =>
    have hsame := hcontents.symm.trans hsame
    have hinside := congrFun hsame (here ++ [(backupPath path).name] ++ [path.name])
    have hfile := congrFun hsame (here ++ [path.name])
    rw [Function.update_of_ne Scene.inside_ne, Function.update_self,
      hscene.contents_inside hbackup] at hinside
    rw [Function.update_self, hscene.contents_file] at hfile
    obtain ⟨mode', hinside⟩ := sightOf_eq_file hinside.symm
    refine .sameInside hscene.node (hscene.backup.node_of_entry hbackup) hinside ?_
    intro hwrite
    rw [if_pos hwrite] at hfile
    exact Sight.file.inj hfile

/-- Where a call fails in one of these ways, everything is as it was. -/
theorem Ending.contents_eq (h : Ending d path text w) (hfault : w.outcome = .error f)
    (hsaved : ¬ Unsaved d path) (htraceless : Traceless d path text) :
    w.disk.contents = d.contents := by
  cases h with
  | unsaved => rfl
  | written => cases hfault
  | restored hscene hleaf hfile hdir hcontents =>
    -- the backup has been taken away, and there was none before
    refine hcontents.trans (Function.update_eq_self_iff.mpr ?_)
    rw [hscene.contents_backup]
    rcases hscene.cases_of_traceless hsaved htraceless with
      ⟨hnone, -⟩ | ⟨mode', -, hdenied⟩ | ⟨m', entries', mode', hbackup, -⟩
    · rw [hnone]
      rfl
    · simp [hfile, hdir] at hdenied
    · rw [hbackup] at hleaf
      cases hleaf
  | backupStays hscene hleaf hnew hstays hcontents =>
    -- the backup has stayed, and was the same before
    refine hcontents.trans (Function.update_eq_self_iff.mpr ?_)
    rw [hscene.contents_backup]
    rcases hscene.cases_of_traceless hsaved htraceless with
      ⟨hnone, hfile⟩ | ⟨mode', hbackup, -⟩ | ⟨m', entries', mode', hbackup, -⟩
    · simp [hfile, hnew hnone] at hstays
    · rw [hbackup]
      rfl
    · rw [hbackup] at hleaf
      cases hleaf
  | @astray here _ _ _ _ mode content _ _ hscene hbackup hcontents =>
    -- the copy went into a directory, where it already was
    rcases hscene.cases_of_traceless hsaved htraceless with
      ⟨hnone, -⟩ | ⟨mode', hbackup', -⟩ | ⟨m', entries', mode', hbackup', hinside, htext⟩
    · rw [hbackup] at hnone
      cases hnone
    · rw [hbackup] at hbackup'
      cases hbackup'
    · cases hbackup.symm.trans hbackup'
      have hwritten : (if d.mayWrite (.file mode content) then bytesOf text else content) =
          content := by
        split
        next hwrite => exact htext hwrite
        · rfl
      have hkept : Function.update d.contents (here ++ [(backupPath path).name] ++ [path.name])
          (.file content) = d.contents := by
        rw [Function.update_eq_self_iff, hscene.contents_inside hbackup, hinside]
        rfl
      exact hcontents.trans (by rw [hwritten, hkept, hscene.update_file])

end Failed

/-- A call that fails leaves every file as it was exactly if it fails in one of four ways: no backup
is made, or the file can be restored and the backup was new, or what the backup leaves behind was
there already. -/
theorem failed_in_place_traceless_iff {suffix : String} {d : Disk} {path : Path}
    {text : Option String} {f : WriteFault} (hsound : d.root.isSound = true)
    (hfault : (write .inPlace suffix d path text).outcome = .error f) :
    (write .inPlace suffix d path text).disk.contents = d.contents ↔ Traceless d path text := by
  change (writeInPlace d path text).outcome = .error f at hfault
  change (writeInPlace d path text).disk.contents = d.contents ↔ _
  have hending := ending_writeInPlace hsound path text
  constructor
  · exact hending.traceless hfault
  · intro htraceless
    by_cases hunsaved : Unsaved d path
    · obtain ⟨f', hcall⟩ := writeInPlace_of_unsaved hunsaved text
      rw [hcall]
    · exact hending.contents_eq hfault hunsaved htraceless

/-- A file that a backup can be made of in a directory that may not be written. -/
def lockedDirectory : Disk :=
  ⟨.dir ⟨true, false, true⟩
      [("shape.py", .file .file [120]), ("shape.py.backup", .file .file [120])],
    true, some []⟩

/-- The backup cannot be removed, and is what was there before. -/
theorem failed_in_place_traceless_iff_sample :
    (∃ f, (write .inPlace "" lockedDirectory ⟨"", ["shape.py"]⟩ (some "y")).outcome = .error f) ∧
      (write .inPlace "" lockedDirectory ⟨"", ["shape.py"]⟩ (some "y")).disk.contents =
        lockedDirectory.contents := by
  have hfault : (write .inPlace "" lockedDirectory ⟨"", ["shape.py"]⟩ (some "y")).outcome =
      .error (.refused ⟨.denied, some "shape.py.backup"⟩) := by decide +kernel
  refine ⟨⟨_, hfault⟩, (failed_in_place_traceless_iff (by decide +kernel) hfault).mpr ?_⟩
  exact .sameBackup rfl rfl (.inr ⟨_, rfl, rfl⟩)

def readOnlyFile : Disk :=
  ⟨.dir .directory [("shape.py", .file ⟨true, false, false⟩ [120])], true, some []⟩

/-- The file is refused after its backup was made, and the backup is left behind. -/
theorem readOnlyFile_backup_left :
    (write .inPlace "" readOnlyFile ⟨"", ["shape.py"]⟩ (some "y")).outcome =
        .error (.refused ⟨.denied, some "shape.py"⟩) ∧
      readOnlyFile.contents ["shape.py.backup"] = .nothing ∧
      (write .inPlace "" readOnlyFile ⟨"", ["shape.py"]⟩ (some "y")).disk.contents
        ["shape.py.backup"] = .file [120] := by
  decide +kernel

/-! ### Calls that succeed -/

/-- A call that succeeds puts the text into the file, and changes nothing else exactly if nothing
stood in the place of the backup. -/
theorem in_place_changes_file_only_iff {suffix : String} {d : Disk} {path target : Path}
    {text : String} (hsound : d.root.isSound = true)
    (hok : (write .inPlace suffix d path (some text)).outcome = .ok target) :
    target = path ∧
      (∃ mode, (write .inPlace suffix d path (some text)).disk.node path =
        .ok (.file mode (Text.encode text.toList))) ∧
      ∃ place, d.place path = .ok place ∧
        ((write .inPlace suffix d path (some text)).disk.contents =
            Function.update d.contents place (.file (Text.encode text.toList)) ↔
          d.exists? (backupPath path) = .ok false) := by
  change (writeInPlace d path (some text)).outcome = .ok target at hok
  change target = path ∧ (∃ mode, (writeInPlace d path (some text)).disk.node path = _) ∧
    ∃ place, _ ∧ ((writeInPlace d path (some text)).disk.contents = _ ↔ _)
  have hending := ending_writeInPlace hsound path (some text)
  generalize writeInPlace d path (some text) = w at hok hending ⊢
  -- only one of the endings is a success
  cases hending with
  | unsaved => cases hok
  | restored => cases hok
  | backupStays => cases hok
  | astray => cases hok
  | @written here _ _ _ _ _ _ hscene _ htext hnode hcontents =>
    cases htext
    refine ⟨(Except.ok.inj hok).symm, ⟨_, hnode⟩, _, hscene.file.place_of_entry hscene.entry, ?_⟩
    rw [hcontents, Function.update_eq_self_iff, Function.update_of_ne (Scene.place_ne path here),
      hscene.contents_backup, hscene.exists?_eq_false_iff]
    constructor
    · exact fun h => sightOf_eq_nothing h.symm
    · intro hnone
      rw [hnone]
      rfl

def nestedFile : Disk :=
  ⟨.dir .directory [("lib", .dir .directory [("shape.py", .file .file [120])])], true, some []⟩

theorem in_place_changes_file_only_iff_sample :
    (write .inPlace "" nestedFile ⟨"", ["lib", "..", "lib", "shape.py"]⟩ (some "y")).outcome =
        .ok ⟨"", ["lib", "..", "lib", "shape.py"]⟩ ∧
      (write .inPlace "" nestedFile ⟨"", ["lib", "..", "lib", "shape.py"]⟩
          (some "y")).disk.contents =
        Function.update nestedFile.contents ["lib", "shape.py"] (.file [121]) := by
  have hok : (write .inPlace "" nestedFile ⟨"", ["lib", "..", "lib", "shape.py"]⟩
      (some "y")).outcome = .ok ⟨"", ["lib", "..", "lib", "shape.py"]⟩ := by decide +kernel
  obtain ⟨-, -, place, hplace, hiff⟩ :=
    in_place_changes_file_only_iff (d := nestedFile) (by decide +kernel) hok
  have hhere : nestedFile.place ⟨"", ["lib", "..", "lib", "shape.py"]⟩ =
      .ok ["lib", "shape.py"] := by decide +kernel
  rw [hhere] at hplace
  obtain rfl := Except.ok.inj hplace
  exact ⟨hok, hiff.mpr (by decide +kernel)⟩

/-- A disk on which the name of the backup is taken. -/
def takenBackup : Disk :=
  ⟨.dir .directory [("shape.py", .file .file [120]), ("shape.py.backup", .file .file [122])], false,
    some []⟩

/-- The file that had the name of the backup is gone. -/
theorem takenBackup_lost :
    (write .inPlace "" takenBackup ⟨"", ["shape.py"]⟩ (some "y")).outcome =
        .ok ⟨"", ["shape.py"]⟩ ∧
      takenBackup.contents ["shape.py.backup"] = .file [122] ∧
      (write .inPlace "" takenBackup ⟨"", ["shape.py"]⟩ (some "y")).disk.contents
        ["shape.py.backup"] = .nothing := by
  decide +kernel

end Restyle.Output

import Mathlib.Logic.Function.Basic
import Restyle.Proofs.Disk.Walk

/-!
What a disk holds: at every place nothing, a directory, or a file with its content. A path whose
last name stands in a directory that can be searched has one place, whatever the other names of the
path are, and every operation on a file at such a path is one update of what the disk holds.
-/

namespace Restyle.Disk

/-! ### Trees of file systems -/

/-- Whether a path can lead through a directory by this name. -/
def isEntryName (name : String) : Bool :=
  name != ".." && decide (name.utf8ByteSize ≤ maxNameBytes) && !name.toList.contains '\x00'

namespace Node

mutual

def everyDir (p : Mode → List (String × Node) → Bool) : Node → Bool
  | file .. => true
  | dir m entries => p m entries && everyDirOfEntries p entries

def everyDirOfEntries (p : Mode → List (String × Node) → Bool) : List (String × Node) → Bool
  | [] => true
  | (_, n) :: rest => n.everyDir p && everyDirOfEntries p rest

end

/-- Whether a tree can be the one of a file system: the names in a directory are different, and
paths can lead through them. -/
def isSound (n : Node) : Bool :=
  n.everyDir fun _ entries =>
    decide (entries.map (·.1)).Nodup && entries.all fun entry => isEntryName entry.1

section EveryDir

variable {p : Mode → List (String × Node) → Bool} {m : Mode} {entries : List (String × Node)}

theorem everyDir_of_mem {name : String} {n : Node} (h : everyDirOfEntries p entries = true)
    (hmem : (name, n) ∈ entries) : n.everyDir p = true := by
  induction entries with
  | nil => cases hmem
  | cons entry rest ih =>
    obtain ⟨hfirst, hrest⟩ := Bool.and_eq_true_iff.mp h
    rcases List.mem_cons.mp hmem with rfl | hmem
    · exact hfirst
    · exact ih hrest hmem

theorem everyDir_dir (h : (dir m entries).everyDir p = true) :
    p m entries = true ∧ ∀ name n, (name, n) ∈ entries → n.everyDir p = true := by
  obtain ⟨hdir, hentries⟩ := Bool.and_eq_true_iff.mp h
  exact ⟨hdir, fun _ _ hmem => everyDir_of_mem hentries hmem⟩

theorem everyDir_of_get? {n x : Node} {names : List String} (h : n.everyDir p = true)
    (hx : n.get? names = some x) : x.everyDir p = true := by
  induction names generalizing n with
  | nil =>
    obtain rfl := Option.some.inj hx
    exact h
  | cons name names ih =>
    obtain ⟨m, entries, child, rfl, hchild, hbelow⟩ := exists_of_get?_cons hx
    exact ih ((everyDir_dir h).2 name child (Table.mem_of_lookup hchild)) hbelow

end EveryDir

theorem isSound_dir {m : Mode} {entries : List (String × Node)}
    (h : (dir m entries).isSound = true) :
    (entries.map (·.1)).Nodup ∧ ∀ entry ∈ entries, isEntryName entry.1 = true := by
  simpa using (everyDir_dir h).1

theorem isSound_of_get? {n x : Node} {names : List String} (h : n.isSound = true)
    (hx : n.get? names = some x) : x.isSound = true := everyDir_of_get? h hx

/-! ### Entries of one directory -/

section Entries

variable {name : String} {entries : List (String × Node)}

theorem lookup_setEntry_none (h : (entries.map (·.1)).Nodup) :
    (setEntry name none entries).lookup name = none := by
  induction entries with
  | nil => rfl
  | cons entry rest ih =>
    obtain ⟨first, v⟩ := entry
    obtain ⟨hfirst, hrest⟩ := List.nodup_cons.mp h
    rw [setEntry]
    split
    next heq =>
      subst heq
      cases hlookup : rest.lookup first with
      | none => exact hlookup
      | some n => exact absurd (List.mem_map_of_mem (Table.mem_of_lookup hlookup)) hfirst
    next hne => rw [Table.lookup_cons_eq_ite, if_neg (Ne.symm hne), ih hrest]

theorem map_fst_setEntry (name : String) (x : Node) (entries : List (String × Node)) :
    (setEntry name (some x) entries).map (·.1) =
      if name ∈ entries.map (·.1) then entries.map (·.1) else entries.map (·.1) ++ [name] := by
  induction entries with
  | nil => rfl
  | cons entry rest ih =>
    obtain ⟨first, v⟩ := entry
    by_cases h : first = name
    · simp [setEntry, h]
    · have hne : name ≠ first := fun heq => h heq.symm
      simp only [setEntry, h, if_false, List.map_cons, ih, List.mem_cons, hne, false_or]
      split <;> rfl

theorem nodup_setEntry (h : (entries.map (·.1)).Nodup) (name : String) (x : Node) :
    ((setEntry name (some x) entries).map (·.1)).Nodup := by
  rw [map_fst_setEntry]
  split
  · exact h
  next hnew => exact List.nodup_append.mpr ⟨h, List.nodup_singleton name, by grind⟩

end Entries

end Node

/-! ### Contents -/

/-- What stands at a place, apart from permissions. -/
inductive Sight where
  | nothing
  | directory
  | file (content : List UInt8)
deriving DecidableEq, Repr

def Node.sight : Node → Sight
  | .file _ content => .file content
  | .dir .. => .directory

def sightOf (o : Option Node) : Sight := (o.map Node.sight).getD .nothing

def contents (d : Disk) (place : List String) : Sight := sightOf (d.root.get? place)

theorem sightOf_of_rel {o o' : Option Node} (h : Option.Rel Node.Kept o o') :
    sightOf o = sightOf o' := by
  cases h with
  | none => rfl
  | some hkept =>
    cases hkept with
    | file => rfl
    | dir => rfl

/-- A disk with a node set or, with `none`, removed at a place. -/
def put (d : Disk) (place : List String) (new : Option Node) : Disk :=
  { d with root := d.root.set place new }

def IsLeaf (o : Option Node) : Prop := o.all Node.isFile = true

theorem get?_append_of_isLeaf {n : Node} {place below : List String} (h : IsLeaf (n.get? place))
    (hbelow : below ≠ []) : n.get? (place ++ below) = none := by
  cases hplace : n.get? place with
  | none => exact Node.get?_append_eq_none hplace below
  | some x =>
    rw [hplace] at h
    cases x with
    | file m content => exact Node.get?_file_append hplace hbelow
    | dir m entries => cases h

section Put

variable {d : Disk} {here : List String} {m : Mode} {entries : List (String × Node)}
  {name : String} {new : Option Node}

section

variable (hdir : d.root.get? here = some (.dir m entries))

include hdir

theorem get?_put_dir (name : String) (new : Option Node) :
    (d.put (here ++ [name]) new).root.get? here = some (.dir m (Node.setEntry name new entries)) :=
  Node.get?_set_above hdir (List.cons_ne_nil name []) new

/-- A leaf in the place of a leaf is the one change in what the disk holds. -/
theorem contents_put (hold : IsLeaf (entries.lookup name)) (hnew : IsLeaf new)
    (hset : (Node.setEntry name new entries).lookup name = new) :
    (d.put (here ++ [name]) new).contents =
      Function.update d.contents (here ++ [name]) (sightOf new) := by
  have hbefore : d.root.get? (here ++ [name]) = entries.lookup name :=
    Node.get?_concat_of_dir hdir name
  have hafter : (d.put (here ++ [name]) new).root.get? (here ++ [name]) = new := by
    rw [Node.get?_concat_of_dir (get?_put_dir hdir name new), hset]
  funext names
  by_cases heq : names = here ++ [name]
  · rw [heq, Function.update_self, contents, hafter]
  rw [Function.update_of_ne heq, contents, contents]
  by_cases hprefix : here ++ [name] <+: names
  · obtain ⟨below, rfl⟩ := hprefix
    have hbelow : below ≠ [] := by
      rintro rfl
      exact heq (List.append_nil _)
    rw [get?_append_of_isLeaf (hafter.symm ▸ hnew) hbelow,
      get?_append_of_isLeaf (hbefore.symm ▸ hold) hbelow]
  · exact (sightOf_of_rel (Node.rel_get?_set hdir name new hprefix)).symm

theorem contents_put_file (hold : IsLeaf (entries.lookup name)) (mode : Mode)
    (content : List UInt8) : (d.put (here ++ [name]) (some (.file mode content))).contents =
      Function.update d.contents (here ++ [name]) (.file content) :=
  contents_put hdir hold rfl (Node.lookup_setEntry name _ entries)

theorem contents_put_none (hold : IsLeaf (entries.lookup name))
    (hnodup : (entries.map (·.1)).Nodup) : (d.put (here ++ [name]) none).contents =
      Function.update d.contents (here ++ [name]) .nothing :=
  contents_put hdir hold rfl (Node.lookup_setEntry_none hnodup)

structure KeepsDirs (d d' : Disk) : Prop where
  enforced : d'.enforced = d.enforced
  cwd : d'.cwd = d.cwd
  dirs : ∀ names m entries, d.root.get? names = some (.dir m entries) →
    ∃ entries', d'.root.get? names = some (.dir m entries')

theorem keepsDirs_put (hold : IsLeaf (entries.lookup name)) (new : Option Node) :
    KeepsDirs d (d.put (here ++ [name]) new) where
  enforced := rfl
  cwd := rfl
  dirs names m' entries' h := by
    have hprefix : ¬ here ++ [name] <+: names := by
      rintro ⟨below, rfl⟩
      have hleaf : IsLeaf (d.root.get? (here ++ [name])) := by
        rwa [Node.get?_concat_of_dir hdir]
      by_cases hbelow : below = []
      · rw [hbelow, List.append_nil] at h
        rw [h] at hleaf
        cases hleaf
      · rw [get?_append_of_isLeaf hleaf hbelow] at h
        cases h
    have hrel := Node.rel_get?_set hdir name new hprefix
    rw [h] at hrel
    change Option.Rel _ _ ((d.put (here ++ [name]) new).root.get? names) at hrel
    generalize (d.put (here ++ [name]) new).root.get? names = o at hrel ⊢
    cases hrel with
    | some hkept =>
      cases hkept with
      | dir m entries entries'' => exact ⟨entries'', rfl⟩

end

/-- A way to a directory stays a way, since it leads through directories only. -/
theorem KeepsDirs.way {d' : Disk} (h : KeepsDirs d d') {start names there : List String}
    (hway : Way d start names there) (hthere : d.root.get? there = some (.dir m entries)) :
    Way d' start names there := by
  have hsearch' {m : Mode} {entries entries' : List (String × Node)}
      (hsearch : d.maySearch (.dir m entries) = true) :
      d'.maySearch (.dir m entries') = true := by
    simpa [maySearch, Node.mode, h.enforced] using hsearch
  induction hway with
  | stop here => exact .stop here
  | up hdir hsearch _ ih =>
    obtain ⟨entries', hdir'⟩ := h.dirs _ _ _ hdir
    exact .up hdir' (hsearch' hsearch) (ih hthere)
  | @down here rest there name m entries n hdir hsearch hname hsize hentry hrest ih =>
    obtain ⟨entries', hdir'⟩ := h.dirs _ _ _ hdir
    have hnext : ∃ m' es', d.root.get? (here ++ [name]) = some (.dir m' es') := by
      cases hrest with
      | stop => exact ⟨_, _, hthere⟩
      | up hdir => exact ⟨_, _, hdir⟩
      | down hdir => exact ⟨_, _, hdir⟩
    obtain ⟨m', es', hnext⟩ := hnext
    obtain ⟨es'', hnext'⟩ := h.dirs _ _ _ hnext
    rw [Node.get?_concat_of_dir hdir'] at hnext'
    exact .down hdir' (hsearch' hsearch) hname hsize hnext' (ih hthere)

end Put

end Restyle.Disk

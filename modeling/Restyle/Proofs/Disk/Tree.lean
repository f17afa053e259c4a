import Restyle.Disk.Basic
import Restyle.Proofs.Table

/-!
Trees of directories and files. After a change at one place the new node stands there, and every
other node is the one it was, except that a directory on the way may hold other entries.
-/

namespace Restyle.Disk.Node

open Table (lookup_cons_eq_ite)

/-! ### Going down -/

theorem exists_of_get?_cons {n x : Node} {name : String} {rest : List String}
    (h : n.get? (name :: rest) = some x) : ∃ m entries child, n = dir m entries ∧
      entries.lookup name = some child ∧ child.get? rest = some x := by
  obtain ⟨child, hchild, hrest⟩ := Option.bind_eq_some_iff.mp h
  cases n with
  | file m c => cases hchild
  | dir m entries => exact ⟨m, entries, child, rfl, hchild, hrest⟩

theorem get?_append (n : Node) (above below : List String) :
    n.get? (above ++ below) = (n.get? above).bind (·.get? below) := by
  induction above generalizing n with
  | nil => rfl
  | cons name above ih =>
    rw [List.cons_append, get?_cons, get?_cons, Option.bind_assoc]
    congr 1
    funext child
    exact ih child

theorem get?_concat (n : Node) (here : List String) (name : String) :
    n.get? (here ++ [name]) = (n.get? here).bind (·.child? name) := by
  rw [get?_append]
  congr 1
  funext child
  rw [get?_cons]
  cases child.child? name <;> rfl

theorem get?_concat_of_dir {n : Node} {here : List String} {m : Mode}
    {entries : List (String × Node)} (h : n.get? here = some (.dir m entries)) (name : String) :
    n.get? (here ++ [name]) = entries.lookup name := by
  rw [get?_concat, h]
  rfl

theorem get?_file_append {n : Node} {here : List String} {m : Mode} {content : List UInt8}
    (h : n.get? here = some (.file m content)) {below : List String} (hbelow : below ≠ []) :
    n.get? (here ++ below) = none := by
  obtain ⟨name, rest, rfl⟩ := List.exists_cons_of_ne_nil hbelow
  rw [get?_append, h]
  rfl

theorem get?_append_eq_none {n : Node} {here : List String} (h : n.get? here = none)
    (below : List String) : n.get? (here ++ below) = none := by
  rw [get?_append, h]
  rfl

/-- Whatever holds something is there itself. -/
theorem exists_get?_of_append {n x : Node} {above below : List String}
    (h : n.get? (above ++ below) = some x) : ∃ y, n.get? above = some y := by
  rw [get?_append] at h
  obtain ⟨y, hy, -⟩ := Option.bind_eq_some_iff.mp h
  exact ⟨y, hy⟩

/-! ### Entries -/

section Entries

variable {name k : String} {x : Node}

theorem lookup_setEntry (name : String) (x : Node) (entries : List (String × Node)) :
    (setEntry name (some x) entries).lookup name = some x := by
  induction entries with
  | nil => exact List.lookup_cons_self
  | cons entry rest ih =>
    obtain ⟨first, v⟩ := entry
    rw [setEntry]
    split
    · next h => simp [h]
    · next h => rw [lookup_cons_eq_ite, if_neg (Ne.symm h), ih]

theorem lookup_setEntry_of_ne (h : k ≠ name) (new : Option Node)
    (entries : List (String × Node)) : (setEntry name new entries).lookup k = entries.lookup k := by
  induction entries with
  | nil => cases new <;> simp [setEntry, lookup_cons_eq_ite, h]
  | cons entry rest ih =>
    obtain ⟨first, v⟩ := entry
    rw [setEntry]
    split
    · next hfirst =>
        subst hfirst
        cases new <;> simp [lookup_cons_eq_ite, h]
    · rw [lookup_cons_eq_ite, lookup_cons_eq_ite, ih]

theorem setEntry_setEntry (name : String) (x y : Node) (entries : List (String × Node)) :
    setEntry name (some y) (setEntry name (some x) entries) = setEntry name (some y) entries := by
  induction entries with
  | nil => simp [setEntry]
  | cons entry rest ih =>
    obtain ⟨first, v⟩ := entry
    by_cases h : first = name <;> simp [setEntry, h, ih]

end Entries

/-! ### Setting a node -/

section Set

variable {m : Mode} {entries : List (String × Node)} {name : String} {child x : Node}
  {rest : List String} {new : Option Node}

theorem set_below (hchild : entries.lookup name = some child) (hrest : rest ≠ [])
    (new : Option Node) :
    (dir m entries).set (name :: rest) new =
      dir m (setEntry name (some (child.set rest new)) entries) := by
  obtain ⟨next, more, rfl⟩ := List.exists_cons_of_ne_nil hrest
  rw [set, hchild]

theorem set_missing (hchild : entries.lookup name = none) (hrest : rest ≠ [])
    (new : Option Node) : (dir m entries).set (name :: rest) new = dir m entries := by
  obtain ⟨next, more, rfl⟩ := List.exists_cons_of_ne_nil hrest
  rw [set, hchild]

theorem set_set (n : Node) (names : List String) (x y : Node) :
    (n.set names (some x)).set names (some y) = n.set names (some y) := by
  induction names generalizing n with
  | nil => rfl
  | cons name rest ih =>
    cases n with
    | file m c => rfl
    | dir m entries =>
      by_cases hrest : rest = []
      · subst hrest
        exact congrArg (dir m) (setEntry_setEntry name x y entries)
      · cases hchild : entries.lookup name with
        | none => rw [set_missing hchild hrest, set_missing hchild hrest]
        | some child =>
          rw [set_below hchild hrest, set_below hchild hrest,
            set_below (lookup_setEntry name _ entries) hrest, setEntry_setEntry, ih child]

/-- A file as it was, or a directory with the same permissions that may hold other entries. -/
inductive Kept : Node → Node → Prop
  | file (m : Mode) (content : List UInt8) : Kept (file m content) (file m content)
  | dir (m : Mode) (entries entries' : List (String × Node)) :
      Kept (dir m entries) (dir m entries')

theorem Kept.refl (n : Node) : Kept n n := by
  cases n with
  | file m content => exact .file m content
  | dir m entries => exact .dir m entries entries

theorem Kept.trans {n n' n'' : Node} (h : Kept n n') (h' : Kept n' n'') : Kept n n'' := by
  cases h with
  | file m content => exact h'
  | dir m entries entries' =>
    cases h' with
    | dir m entries' entries'' => exact .dir m entries entries''

theorem rel_kept_refl (o : Option Node) : Option.Rel Kept o o := by
  cases o with
  | none => exact .none
  | some n => exact .some (.refl n)

section InDirectory

variable {n : Node} {here : List String}

/-- A node above the place of a change is the old one with the change made in it. -/
theorem get?_set_above {x : Node} {rest : List String} (hhere : n.get? here = some x)
    (hrest : rest ≠ []) (new : Option Node) :
    (n.set (here ++ rest) new).get? here = some (x.set rest new) := by
  induction here generalizing n with
  | nil =>
    obtain rfl := Option.some.inj hhere
    rfl
  | cons first here ih =>
    obtain ⟨m, es, child, rfl, hchild, hbelow⟩ := exists_of_get?_cons hhere
    rw [List.cons_append, set_below hchild (List.append_ne_nil_of_right_ne_nil here hrest),
      get?_cons, child?_dir, lookup_setEntry]
    exact ih hbelow

theorem get?_set_self (hhere : n.get? here = some (dir m entries)) (name : String) (x : Node) :
    (n.set (here ++ [name]) (some x)).get? (here ++ [name]) = some x := by
  have habove := get?_set_above hhere (List.cons_ne_nil name []) (some x)
  rw [get?_concat_of_dir habove]
  exact lookup_setEntry name x entries

/-- Nothing changes but what stands at the place or below it. -/
theorem rel_get?_set (hhere : n.get? here = some (dir m entries)) (name : String)
    (new : Option Node) {names : List String} (hnames : ¬ here ++ [name] <+: names) :
    Option.Rel Kept (n.get? names) ((n.set (here ++ [name]) new).get? names) := by
  induction here generalizing n names with
  | nil =>
    obtain rfl := Option.some.inj hhere
    cases names with
    | nil => exact .some (.dir m _ _)
    | cons k below =>
      have hk : k ≠ name := by
        rintro rfl
        exact hnames ⟨below, rfl⟩
      rw [List.nil_append, set, get?_cons, get?_cons, child?_dir, child?_dir,
        lookup_setEntry_of_ne hk]
      exact rel_kept_refl _
  | cons first here ih =>
    obtain ⟨m', es, child, rfl, hchild, hbelow⟩ := exists_of_get?_cons hhere
    rw [List.cons_append, set_below hchild (List.concat_ne_nil name here)]
    cases names with
    | nil => exact .some (.dir m' _ _)
    | cons k below =>
      rw [get?_cons, get?_cons, child?_dir, child?_dir]
      by_cases hk : k = first
      · subst hk
        rw [lookup_setEntry, hchild]
        apply ih hbelow
        intro hprefix
        exact hnames (List.cons_prefix_cons.mpr ⟨rfl, hprefix⟩)
      · rw [lookup_setEntry_of_ne hk]
        exact rel_kept_refl _

/-- A new file is there, and otherwise everything is as it was. -/
theorem rel_get?_set_file (hhere : n.get? here = some (dir m entries)) {name : String}
    (hnew : entries.lookup name = none) (mode : Mode) (content : List UInt8)
    {names : List String} (hnames : names ≠ here ++ [name]) :
    Option.Rel Kept (n.get? names)
      ((n.set (here ++ [name]) (some (file mode content))).get? names) := by
  by_cases hprefix : here ++ [name] <+: names
  · obtain ⟨below, rfl⟩ := hprefix
    have hbelow : below ≠ [] := by
      rintro rfl
      exact hnames (List.append_nil _)
    have hbefore : n.get? (here ++ [name]) = none := by
      rw [get?_concat_of_dir hhere, hnew]
    rw [get?_append_eq_none hbefore, get?_file_append (get?_set_self hhere name _) hbelow]
    exact .none
  · exact rel_get?_set hhere name _ hprefix

end InDirectory

end Set

/-! ### Size -/

theorem size_pos (n : Node) : 0 < n.size := by
  cases n with
  | file m content => exact Nat.one_pos
  | dir m entries =>
    rw [size]
    omega

theorem length_le_sizeOfEntries (entries : List (String × Node)) :
    entries.length ≤ sizeOfEntries entries := by
  induction entries with
  | nil => exact Nat.le_refl _
  | cons entry rest ih =>
    obtain ⟨name, n⟩ := entry
    have hpos := n.size_pos
    simp only [List.length_cons, sizeOfEntries]
    omega

theorem length_lt_size (m : Mode) (entries : List (String × Node)) :
    entries.length < (dir m entries).size := by
  have h := length_le_sizeOfEntries entries
  rw [size]
  omega

theorem size_le_sizeOfEntries {name : String} {n : Node} {entries : List (String × Node)}
    (h : entries.lookup name = some n) : n.size ≤ sizeOfEntries entries := by
  induction entries with
  | nil => cases h
  | cons entry rest ih =>
    obtain ⟨first, v⟩ := entry
    rw [lookup_cons_eq_ite] at h
    simp only [sizeOfEntries]
    split at h
    · obtain rfl := Option.some.inj h
      omega
    · have hrest := ih h
      omega

theorem size_le_of_get? {n x : Node} {here : List String} (h : n.get? here = some x) :
    x.size ≤ n.size := by
  induction here generalizing n with
  | nil =>
    obtain rfl := Option.some.inj h
    exact Nat.le_refl _
  | cons name here ih =>
    obtain ⟨m, entries, child, rfl, hchild, hbelow⟩ := exists_of_get?_cons h
    have hsize := size_le_sizeOfEntries hchild
    have hx := ih hbelow
    rw [size]
    omega

end Restyle.Disk.Node

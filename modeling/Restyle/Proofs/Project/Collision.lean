import Restyle.Proofs.Naming.Respelled
import Restyle.Proofs.Project.Alone
import Restyle.Proofs.Project.ReadBack

/-!
Names that collide. Nothing keeps two old names of a file from getting the same new one, or a new
name from being one that the file has already. But a new name is a respelling of the old one, so
the main statement says: if no name that gets another one is akin to another name of the file, then
all names stay apart.
-/

namespace Restyle

namespace Syntax

/-- The name that a name, an argument, an attribute, a function or a class has. -/
def Label.identifier? : Label → Option String
  | .name id _ => some id
  | .arg id => some id
  | .attr id _ => some id
  | .functionDef _ id => some id
  | .classDef id => some id
  | _ => none

def Tree.identifiers (t : Tree) : List String := t.preorder.filterMap (·.label.identifier?)

end Syntax

namespace Project

open Disk (Path)
open Restyle.Symbol (SymbolMap)
open Naming (Akin Respelled Spelled)

def identifiersIn [Dialect] (d : Disk) (p : Path) : List String :=
  match Source.ofFile d p with
  | .ok source => source.tree.identifiers
  | .error _ => []

/-- All new names that a file is given when an engine processes it. -/
def Engine.givenNames [Dialect] (e : Engine) (d : Disk) (p : Path) : NameMap :=
  match e.context, load d p with
  | some c, .ok (_, _, es) => combinedNames (renamings e.settings es) (Symbol.renamesIn c.plan p)
  | _, _ => .empty

/-- Names stay apart if different ones get different new ones, and no new name is an old one or one
that is used already. -/
structure KeepsApart (names : NameMap) (used : List String) : Prop where
  injective : ∀ r ∈ names.entries, ∀ q ∈ names.entries, r.2 = q.2 → r.1 = q.1
  fresh : ∀ r ∈ names.entries, r.2 ∉ names.keys ∧ r.2 ∉ used

section Given

variable [Dialect] {s : Settings} {d d' : Disk} {root : Path} {paths : List Path} {p : Path}

theorem get?_givenNames (e : Engine) (d : Disk) (p : Path) (x : String) :
    (e.givenNames d p).get? x = e.givenName? d p x := by
  unfold Engine.givenNames Engine.givenName?
  cases e.context with
  | none => rfl
  | some c => cases load d p <;> rfl

theorem nodup_keys_givenNames (e : Engine) (d : Disk) (p : Path) :
    (e.givenNames d p).keys.Nodup := by
  unfold Engine.givenNames
  split
  · exact Table.nodup_keys_insertAll _ (Table.nodup_keys_ofList _)
  · exact List.nodup_nil

theorem exists_source_of_identifier {x : String} (h : x ∈ identifiersIn d p) :
    ∃ source, Source.ofFile d p = .ok source := by
  unfold identifiersIn at h
  cases hsource : Source.ofFile d p with
  | ok source => exact ⟨source, rfl⟩
  | error f =>
    rw [hsource] at h
    cases h

section Faultless

variable (hfault : (SymbolMap.empty.analyze d root paths).fault = none)

include hfault

/-- Every new name is one that an element with the old name has to have. -/
theorem exists_element_of_given {r : String × String}
    (hr : r ∈ ((projectEngine s d root paths).givenNames d' p).entries) :
    ∃ e, e.name = r.1 ∧ Spelled r.1 ∧ s.newName? e = some r.2 := by
  have hget := (Table.get?_eq_some_iff_mem (nodup_keys_givenNames _ _ _)).mpr hr
  rw [get?_givenNames] at hget
  cases hsource : Source.ofFile d' p with
  | error f =>
    unfold Engine.givenName? at hget
    rw [load_of_error hsource] at hget
    cases hget
  | ok source =>
    rw [givenName?_projectEngine hsource] at hget
    rcases Option.or_eq_some_iff.mp hget with hcross | ⟨-, hown⟩
    · obtain ⟨-, hplanned⟩ :=
        (SymbolMap.get?_renamesIn_plan (tidy_projectMap hfault)).mp hcross
      obtain ⟨found, hfound, hnew⟩ := Option.bind_eq_some_iff.mp hplanned
      have hname := (tidy_projectMap hfault).names r.1 found (Symbol.mem_of_primary? hfound)
      exact ⟨found.element, hname, (spelled_of_planned hfault hplanned).1, hnew⟩
    · obtain ⟨source, hsource, e, he, hname, hnew⟩ := exists_element_of_ownName? hown
      exact ⟨e, hname, hname ▸ spelled_of_mem_elements hsource e he, hnew⟩

theorem respelled_of_given {r : String × String}
    (hr : r ∈ ((projectEngine s d root paths).givenNames d' p).entries) :
    Respelled r.1.toList r.2.toList ∧ r.2 ≠ r.1 := by
  obtain ⟨e, hname, -, hnew⟩ := exists_element_of_given hfault hr
  obtain ⟨convention, hrecase, -, hother⟩ := s.exists_of_newName? hnew
  rw [hname] at hrecase hother
  exact ⟨hrecase ▸ Naming.respelled_recaseAs r.1 convention, hother⟩

/-- Giving names never fails, so a source that is not formatted is always processed. -/
theorem success_of_unformatted {source : Source} (hsource : Source.ofFile d' p = .ok source)
    (hdocstrings : s.docstrings = false) (hblankLines : s.blankLines = false) :
    ((projectEngine s d root paths).processFile d' p).1.success = true := by
  have hformat (text : List Char) (changes : List String) :
      format s text changes = .ok (text, changes) := by
    simp only [format, formatDocstrings, hdocstrings, Bool.false_eq_true, if_false]
    simp only [formatBlankLines, Layout.apply, hblankLines, Bool.not_false, if_true]
    rfl
  have hgiven : (projectEngine s d root paths).givenNames d' p =
      combinedNames (renamings s (elements source.tree))
        (Symbol.renamesIn ((projectMap d root paths).plan s) p) := by
    unfold Engine.givenNames
    rw [load_of_ok hsource]
    rfl
  obtain ⟨text, htext⟩ := exists_renamedText source fun r hr => by
    obtain ⟨e, hname, hspelled, hnew⟩ := exists_element_of_given (s := s) (p := p) hfault hr
    exact spelled_newName? (hname ▸ hspelled) hnew
  change (processTogether s d' (projectMap d root paths)
    (Symbol.renamesIn ((projectMap d root paths).plan s) p) p).1.success = true
  unfold processTogether
  rw [load_of_ok hsource]
  dsimp only
  rw [← hgiven]
  split
  · rw [combinedResult_eq_result, hformat]
    rfl
  · rw [htext]
    dsimp only
    rw [combinedResult_eq_result, hformat]
    rfl

end Faultless

/-- A file is only given other spellings of its names. If no name that gets another one is akin to
another name that does or that the file has, then the names of the file stay apart. For ASCII names
to be akin is to have the same letters and digits in the same order. -/
theorem keepsApart_of_not_akin (hfault : (SymbolMap.empty.analyze d root paths).fault = none) :
    (∀ r ∈ ((projectEngine s d root paths).givenNames d' p).entries,
        Respelled r.1.toList r.2.toList ∧ r.2 ≠ r.1) ∧
      ((∀ x ∈ ((projectEngine s d root paths).givenNames d' p).keys,
          ∀ y ∈ ((projectEngine s d root paths).givenNames d' p).keys ++ identifiersIn d' p,
            Akin x y → x = y) →
        KeepsApart ((projectEngine s d root paths).givenNames d' p) (identifiersIn d' p)) ∧
      ∀ x y : String, x.toList.all Text.isAscii = true → y.toList.all Text.isAscii = true →
        (Akin x y ↔ Naming.letters x.toList = Naming.letters y.toList) := by
  refine ⟨fun r => respelled_of_given hfault, fun hakin => ?_, fun x y =>
    Naming.akin_iff_letters_eq⟩
  constructor
  · intro r hr q hq hsame
    refine hakin r.1 (List.mem_map_of_mem hr) q.1
      (List.mem_append_left _ (List.mem_map_of_mem hq)) ?_
    exact ⟨r.2.toList, (respelled_of_given hfault hr).1,
      hsame ▸ (respelled_of_given hfault hq).1⟩
  · intro r hr
    obtain ⟨hrespelled, hother⟩ := respelled_of_given hfault hr
    have hnew (hmem : r.2 ∈ ((projectEngine s d root paths).givenNames d' p).keys ++
        identifiersIn d' p) : False :=
      hother (hakin r.1 (List.mem_map_of_mem hr) r.2 hmem
        ⟨r.2.toList, hrespelled, .refl _⟩).symm
    exact ⟨fun hkey => hnew (List.mem_append_left _ hkey),
      fun hused => hnew (List.mem_append_right _ hused)⟩

end Given

def totalProject : Disk :=
  ⟨.dir .directory [("names.py", .file .file
    (Text.encode "def itemTotal(item): return item.count\n".toList))], false, some []⟩

theorem keepsApart_of_not_akin_sample :
    ((projectEngine .usual totalProject ⟨"", []⟩ [⟨"", ["names.py"]⟩]).givenNames totalProject
        ⟨"", ["names.py"]⟩).entries = [("itemTotal", "item_total")] ∧
      KeepsApart ((projectEngine .usual totalProject ⟨"", []⟩ [⟨"", ["names.py"]⟩]).givenNames
        totalProject ⟨"", ["names.py"]⟩) (identifiersIn totalProject ⟨"", ["names.py"]⟩) := by
  have hnames : (projectEngine .usual totalProject ⟨"", []⟩ [⟨"", ["names.py"]⟩]).givenNames
      totalProject ⟨"", ["names.py"]⟩ = ⟨[("itemTotal", "item_total")]⟩ := by
    decide +kernel
  have hused : identifiersIn totalProject ⟨"", ["names.py"]⟩ =
      ["itemTotal", "item", "count", "item"] := by
    decide +kernel
  refine ⟨by rw [hnames], (keepsApart_of_not_akin (by decide +kernel)).2.1 ?_⟩
  rw [hnames, hused]
  intro x hx y hy hakin
  -- the names are ASCII names, and no two of them have the same letters
  have hascii : ∀ z ∈ ["itemTotal", "itemTotal", "item", "count", "item"],
      z.toList.all Text.isAscii = true := by decide
  have hletters : ∀ z ∈ ["itemTotal", "itemTotal", "item", "count", "item"],
      Naming.letters "itemTotal".toList = Naming.letters z.toList → "itemTotal" = z := by decide
  obtain rfl := List.mem_singleton.mp hx
  exact hletters y hy
    ((Naming.akin_iff_letters_eq (hascii _ List.mem_cons_self) (hascii y hy)).mp hakin)

def akinProject : Disk :=
  ⟨.dir .directory [("names.py", .file .file (Text.encode
    "def fooBar(): pass\ndef FooBar(): pass\nclass foo_bar: pass\n".toList))], false, some []⟩

/-- The file is processed, and two of its names get the same new one, which is an old one too and
is used in the file. -/
theorem akin_names_collide :
    ((projectEngine { Settings.usual with docstrings := false } akinProject ⟨"", []⟩
        [⟨"", ["names.py"]⟩]).processFile akinProject ⟨"", ["names.py"]⟩).1.success = true ∧
      ((projectEngine { Settings.usual with docstrings := false } akinProject ⟨"", []⟩
        [⟨"", ["names.py"]⟩]).givenNames akinProject ⟨"", ["names.py"]⟩).entries =
        [("fooBar", "foo_bar"), ("FooBar", "foo_bar"), ("foo_bar", "FooBar")] ∧
      "foo_bar" ∈ identifiersIn akinProject ⟨"", ["names.py"]⟩ ∧
      ¬ KeepsApart ((projectEngine { Settings.usual with docstrings := false } akinProject ⟨"", []⟩
        [⟨"", ["names.py"]⟩]).givenNames akinProject ⟨"", ["names.py"]⟩)
        (identifiersIn akinProject ⟨"", ["names.py"]⟩) := by
  have hused : "foo_bar" ∈ identifiersIn akinProject ⟨"", ["names.py"]⟩ := by decide +kernel
  have hentries : ((projectEngine { Settings.usual with docstrings := false } akinProject ⟨"", []⟩
      [⟨"", ["names.py"]⟩]).givenNames akinProject ⟨"", ["names.py"]⟩).entries =
      [("fooBar", "foo_bar"), ("FooBar", "foo_bar"), ("foo_bar", "FooBar")] := by
    decide +kernel
  obtain ⟨source, hsource⟩ := exists_source_of_identifier hused
  refine ⟨success_of_unformatted (by decide +kernel) hsource rfl rfl, hentries, hused, ?_⟩
  intro hapart
  have hmem : ("fooBar", "foo_bar") ∈ ((projectEngine { Settings.usual with docstrings := false }
      akinProject ⟨"", []⟩ [⟨"", ["names.py"]⟩]).givenNames akinProject
      ⟨"", ["names.py"]⟩).entries := by
    rw [hentries]
    decide
  exact (hapart.fresh _ hmem).2 hused

end Project

end Restyle

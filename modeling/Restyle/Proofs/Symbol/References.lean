import Restyle.Proofs.Symbol.Plan

/-!
References to names. A file is concerned by a new name if it defines the old one, reads or calls
it, takes it from a name before a dot, or imports it from a module that is given by a name. The
main statement is that a plan concerns exactly these files.
-/

namespace Restyle.Symbol

open Disk (Path)
open Syntax

variable {x : String} {p : Path} {t : Tree} {d : Disk}

/-! ### Nodes -/

/-- A node mentions a name. A member counts if a name stands before the dot, and an import from a
module if the module has a name. -/
inductive Mentions (x : String) (t : Tree) : Prop
  | read (h : t.label = .name x .load)
  | call (f : Tree) (access : Access) (h : t.label = .call) (hfunc : t.part? .func = some f)
      (hname : f.label = .name x access)
  | member (access : Access) (owner : Tree) (id : String) (ownerAccess : Access)
      (h : t.label = .attr x access) (hvalue : t.part? .value = some owner)
      (hname : owner.label = .name id ownerAccess)
  | imported (c : Tree) (asName : Option String) (h : t.label = .importStmt)
      (hc : c ∈ t.children) (hname : c.label = .importName x asName)
  | importedFrom (source : String) (level : Nat) (c : Tree) (asName : Option String)
      (h : t.label = .importFrom (some source) level) (hc : c ∈ t.children)
      (hname : c.label = .importName x asName)

theorem nameOf?_eq_some : nameOf? t = some x ↔ ∃ access, t.label = .name x access := by
  unfold nameOf?
  split <;> simp_all

theorem memberOf?_eq_some {owner : String} :
    memberOf? t = some (owner, x) ↔
      ∃ access v valueAccess, t.label = .attr x access ∧ t.part? .value = some v ∧
        v.label = .name owner valueAccess := by
  unfold memberOf?
  split
  case h_1 a access hlabel =>
    rw [hlabel]
    constructor
    · intro h
      obtain ⟨id, hid, heq⟩ := Option.map_eq_some_iff.mp h
      obtain ⟨v, hv, hname⟩ := Option.bind_eq_some_iff.mp hid
      obtain ⟨valueAccess, hvalue⟩ := nameOf?_eq_some.mp hname
      cases heq
      exact ⟨access, v, valueAccess, rfl, hv, hvalue⟩
    · rintro ⟨_, v, valueAccess, ⟨⟩, hv, hvalue⟩
      rw [hv, Option.bind_some, nameOf?_eq_some.mpr ⟨valueAccess, hvalue⟩, Option.map_some]
  case h_2 hlabel =>
    constructor
    · nofun
    · rintro ⟨access, _, _, h, -⟩
      exact absurd h (hlabel x access)

theorem mentions_of_memberOf? {owner : String} (h : memberOf? t = some (owner, x)) :
    Mentions x t := by
  obtain ⟨access, v, valueAccess, hlabel, hv, hname⟩ := memberOf?_eq_some.mp h
  exact .member access v owner valueAccess hlabel hv hname

/-- What a node uses is mentioned by the node or by one of its children. -/
theorem mentions_of_usageAt? {u : Usage} (h : usageAt? p t = some u) :
    u.path = p ∧ (Mentions u.name t ∨ ∃ f ∈ t.children, Mentions u.name f) := by
  unfold usageAt? at h
  split at h
  case h_1 id hlabel =>
    cases h
    exact ⟨rfl, .inl (.read hlabel)⟩
  case h_2 =>
    obtain ⟨⟨owner, a⟩, hmember, heq⟩ := Option.map_eq_some_iff.mp h
    cases heq
    exact ⟨rfl, .inl (mentions_of_memberOf? hmember)⟩
  case h_3 hlabel =>
    obtain ⟨f, hf, h⟩ := Option.bind_eq_some_iff.mp h
    split at h
    case h_1 id hname =>
      cases h
      obtain ⟨access, hlabel'⟩ := nameOf?_eq_some.mp hname
      exact ⟨rfl, .inl (.call f access hlabel hf hlabel')⟩
    case h_2 =>
      -- the member that is called is a child of the call
      obtain ⟨⟨owner, a⟩, hmember, heq⟩ := Option.map_eq_some_iff.mp h
      cases heq
      exact ⟨rfl, .inr ⟨f, List.mem_of_find?_eq_some hf, mentions_of_memberOf? hmember⟩⟩
  case h_4 => cases h

theorem mem_importedNames :
    x ∈ (t.children.filterMap aliasPair?).map (·.1) ↔
      ∃ c ∈ t.children, ∃ asName, c.label = .importName x asName := by
  have hpair {c : Tree} {pair : String × Option String} :
      aliasPair? c = some pair ↔ c.label = .importName pair.1 pair.2 := by
    unfold aliasPair?
    split <;> simp_all [Prod.ext_iff]
  constructor
  · intro h
    obtain ⟨pair, hmem, rfl⟩ := List.mem_map.mp h
    obtain ⟨c, hc, hcp⟩ := List.mem_filterMap.mp hmem
    exact ⟨c, hc, pair.2, hpair.mp hcp⟩
  · rintro ⟨c, hc, asName, hlabel⟩
    exact List.mem_map.mpr ⟨(x, asName), List.mem_filterMap.mpr ⟨c, hc, hpair.mpr hlabel⟩, rfl⟩

theorem mentions_of_importsAt {i : Import} (hi : i ∈ importsAt p t) (hx : x ∈ i.names) :
    i.path = p ∧ Mentions x t := by
  unfold importsAt at hi
  dsimp only at hi
  split at hi
  case h_1 hlabel =>
    obtain ⟨pair, hpair, rfl⟩ := List.mem_map.mp hi
    have hmem : x ∈ (t.children.filterMap aliasPair?).map (·.1) := by
      rw [List.mem_singleton.mp hx]
      exact List.mem_map_of_mem hpair
    obtain ⟨c, hc, asName, hname⟩ := mem_importedNames.mp hmem
    exact ⟨rfl, .imported c asName hlabel hc hname⟩
  case h_2 source level hlabel =>
    cases List.mem_singleton.mp hi
    obtain ⟨c, hc, asName, hname⟩ := mem_importedNames.mp hx
    exact ⟨rfl, .importedFrom source level c asName hlabel hc hname⟩
  case h_3 => cases hi

/-- What a node mentions is found there, as a usage or as an import. -/
theorem Mentions.found (h : Mentions x t) (p : Path) :
    (∃ u, usageAt? p t = some u ∧ u.name = x ∧ u.path = p) ∨
      ∃ i ∈ importsAt p t, x ∈ i.names ∧ i.path = p := by
  cases h with
  | read hlabel =>
    refine .inl ⟨⟨x, .read, p, t.line⟩, ?_, rfl, rfl⟩
    unfold usageAt?
    rw [hlabel]
  | call f access hlabel hfunc hname =>
    refine .inl ⟨⟨x, .call, p, t.line⟩, ?_, rfl, rfl⟩
    unfold usageAt?
    rw [hlabel, hfunc]
    dsimp only [Option.bind_some]
    rw [nameOf?_eq_some.mpr ⟨access, hname⟩]
  | member access owner id ownerAccess hlabel hvalue hname =>
    refine .inl ⟨⟨x, .member id, p, t.line⟩, ?_, rfl, rfl⟩
    have hmember : memberOf? t = some (id, x) :=
      memberOf?_eq_some.mpr ⟨access, owner, ownerAccess, hlabel, hvalue, hname⟩
    unfold usageAt?
    rw [hlabel, hmember]
    rfl
  | imported c asName hlabel hc hname =>
    have hpair : (x, asName) ∈ t.children.filterMap aliasPair? := by
      refine List.mem_filterMap.mpr ⟨c, hc, ?_⟩
      unfold aliasPair?
      rw [hname]
    refine .inr ⟨⟨p, t.line, .whole, x, [x], aliasMap [(x, asName)]⟩, ?_, List.mem_cons_self, rfl⟩
    unfold importsAt
    rw [hlabel]
    exact List.mem_map.mpr ⟨(x, asName), hpair, rfl⟩
  | importedFrom source level c asName hlabel hc hname =>
    let pairs := t.children.filterMap aliasPair?
    refine .inr ⟨⟨p, t.line, .members, source, pairs.map (·.1), aliasMap pairs⟩, ?_, ?_, rfl⟩
    · unfold importsAt
      rw [hlabel]
      exact List.mem_singleton.mpr rfl
    · exact mem_importedNames.mpr ⟨c, hc, asName, hname⟩

/-! ### Files -/

/-- A file refers to a name: its source defines or mentions it. -/
def Refers [Dialect] (d : Disk) (p : Path) (x : String) : Prop :=
  ∃ source, Source.ofFile d p = .ok source ∧
    ((∃ e ∈ elements source.tree, e.name = x) ∨ ∃ n ∈ source.tree.preorder, Mentions x n)

theorem refers_of_definition [Dialect] {found : Definition} (h : found ∈ definitionsOf d p) :
    found.path = p ∧ Refers d p found.element.name := by
  unfold definitionsOf at h
  split at h
  case h_1 source hsource =>
    obtain ⟨e, he, rfl⟩ := List.mem_map.mp h
    exact ⟨rfl, source, hsource, .inl ⟨e, he, rfl⟩⟩
  case h_2 => cases h

theorem refers_of_usage [Dialect] {u : Usage} (h : u ∈ usagesOf d p) :
    u.path = p ∧ Refers d p u.name := by
  unfold usagesOf at h
  split at h
  case h_1 source hsource =>
    obtain ⟨n, hn, hu⟩ := List.mem_filterMap.mp h
    obtain ⟨hpath, hmentions⟩ := mentions_of_usageAt? hu
    refine ⟨hpath, source, hsource, .inr ?_⟩
    rcases hmentions with hmentions | ⟨f, hf, hmentions⟩
    · exact ⟨n, hn, hmentions⟩
    · exact ⟨f, Tree.child_mem_preorder hf hn, hmentions⟩
  case h_2 => cases h

theorem refers_of_import [Dialect] {i : Import} (h : i ∈ importsOf d p) (hx : x ∈ i.names) :
    i.path = p ∧ Refers d p x := by
  unfold importsOf at h
  split at h
  case h_1 source hsource =>
    obtain ⟨n, hn, hi⟩ := List.mem_flatMap.mp h
    obtain ⟨hpath, hmentions⟩ := mentions_of_importsAt hi hx
    exact ⟨hpath, source, hsource, .inr ⟨n, Tree.mem_breadthFirst.mp hn, hmentions⟩⟩
  case h_2 => cases h

theorem Refers.found [Dialect] (h : Refers d p x) :
    (∃ found ∈ definitionsOf d p, found.element.name = x ∧ found.path = p) ∨
      (∃ u ∈ usagesOf d p, u.name = x ∧ u.path = p) ∨
      ∃ i ∈ importsOf d p, x ∈ i.names ∧ i.path = p := by
  obtain ⟨source, hsource, h⟩ := h
  unfold definitionsOf usagesOf importsOf
  rw [hsource]
  rcases h with ⟨e, he, rfl⟩ | ⟨n, hn, hmentions⟩
  · exact .inl ⟨⟨p, e⟩, List.mem_map_of_mem he, rfl, rfl⟩
  · rcases hmentions.found p with ⟨u, hu, hname, hpath⟩ | ⟨i, hi, hx, hpath⟩
    · exact .inr (.inl ⟨u, List.mem_filterMap.mpr ⟨n, hn, hu⟩, hname, hpath⟩)
    · refine .inr (.inr ⟨i, ?_, hx, hpath⟩)
      exact List.mem_flatMap.mpr ⟨n, Tree.mem_breadthFirst.mpr hn, hi⟩

theorem mem_filesWith {m : SymbolMap} :
    p ∈ m.filesWith x ↔
      (∃ found ∈ Index.all m.definitions x, found.path = p) ∨
        (∃ u ∈ Index.all m.usages x, u.path = p) ∨
        ∃ i ∈ m.imports, x ∈ i.names ∧ i.path = p := by
  simp [SymbolMap.filesWith, SymbolMap.places, and_assoc]

/-- A file in which a name is known, was known before or is the place of something added. -/
theorem Adds.mem_filesWith {ds : List Definition} {us : List Usage} {is : List Import}
    {m m' : SymbolMap} (h : Adds ds us is m m') :
    p ∈ m'.filesWith x ↔ p ∈ m.filesWith x ∨
      (∃ found ∈ ds, found.element.name = x ∧ found.path = p) ∨
        (∃ u ∈ us, u.name = x ∧ u.path = p) ∨ ∃ i ∈ is, x ∈ i.names ∧ i.path = p := by
  rw [Symbol.mem_filesWith, Symbol.mem_filesWith, h.definitions, h.usages, h.imports]
  simp only [List.mem_append, List.mem_filter, decide_eq_true_eq, or_and_right, exists_or,
    and_assoc, or_assoc, or_left_comm]

/-- After an analysis a name is known in the files in which it was known before, and in the files
that refer to it. -/
theorem mem_filesWith_analyze [Dialect] {m : SymbolMap} {root : Path} {paths : List Path}
    (h : (m.analyze d root paths).fault = none) :
    p ∈ (m.analyze d root paths).map.filesWith x ↔
      p ∈ m.filesWith x ∨ p ∈ paths ∧ Refers d p x := by
  rw [(adds_analyze h).mem_filesWith]
  apply or_congr_right
  constructor
  · -- what is found in a file has the path of that file
    rintro (⟨found, hfound, rfl, rfl⟩ | ⟨u, hu, rfl, rfl⟩ | ⟨i, hi, hx, rfl⟩)
    · obtain ⟨q, hq, hmem⟩ := List.mem_flatMap.mp hfound
      obtain ⟨rfl, hrefers⟩ := refers_of_definition hmem
      exact ⟨hq, hrefers⟩
    · obtain ⟨q, hq, hmem⟩ := List.mem_flatMap.mp hu
      obtain ⟨rfl, hrefers⟩ := refers_of_usage hmem
      exact ⟨hq, hrefers⟩
    · obtain ⟨q, hq, hmem⟩ := List.mem_flatMap.mp hi
      obtain ⟨rfl, hrefers⟩ := refers_of_import hmem hx
      exact ⟨hq, hrefers⟩
  · rintro ⟨hp, hrefers⟩
    rcases hrefers.found with ⟨found, hfound, hname⟩ | ⟨u, hu, hname⟩ | ⟨i, hi, hx⟩
    · exact .inl ⟨found, List.mem_flatMap.mpr ⟨p, hp, hfound⟩, hname⟩
    · exact .inr (.inl ⟨u, List.mem_flatMap.mpr ⟨p, hp, hu⟩, hname⟩)
    · exact .inr (.inr ⟨i, List.mem_flatMap.mpr ⟨p, hp, hi⟩, hx⟩)

/-! ### Plans -/

/-- A planned name concerns a file exactly if it was known there before the analysis, or if the
file refers to it. -/
theorem mem_affected_iff_refers [Dialect] (s : Settings) (m : SymbolMap) (d : Disk) (root : Path)
    (paths : List Path) (hfault : (m.analyze d root paths).fault = none) (t : Transformation)
    (ht : t ∈ (m.analyze d root paths).map.plan s) (p : Path) :
    p ∈ t.affected ↔ p ∈ m.filesWith t.old ∨ p ∈ paths ∧ Refers d p t.old := by
  rw [SymbolMap.affected_of_mem_plan ht, mem_filesWith_analyze hfault]

/-- A project whose first file has a name to be changed. The other files take it from a module,
from a member of a module, and from the package that they are in. -/
def sampleProject : Disk :=
  ⟨.dir .directory
    [("names.py", .file .file (Text.encode "def oldName(): pass\n".toList)),
      ("uses.py", .file .file (Text.encode "import names\nnames.oldName()\n".toList)),
      ("chain.py", .file .file (Text.encode "import pack\npack.names.oldName()\n".toList)),
      ("dots.py", .file .file (Text.encode "from . import oldName\n".toList))], false, some []⟩

def samplePaths : List Path :=
  [⟨"", ["names.py"]⟩, ⟨"", ["uses.py"]⟩, ⟨"", ["chain.py"]⟩, ⟨"", ["dots.py"]⟩]

def sampleAnalysis : SymbolMap.Analysis :=
  SymbolMap.empty.analyze sampleProject ⟨"", []⟩ samplePaths

def sampleTransformation : Transformation :=
  ⟨"oldName", "old_name", "function", ⟨"", ["names.py"]⟩,
    [⟨"", ["names.py"]⟩, ⟨"", ["uses.py"]⟩]⟩

theorem mem_affected_iff_refers_sample :
    sampleAnalysis.fault = none ∧ sampleTransformation ∈ sampleAnalysis.map.plan .usual ∧
      ((⟨"", ["uses.py"]⟩ : Path) ∈ sampleTransformation.affected ↔
        (⟨"", ["uses.py"]⟩ : Path) ∈ SymbolMap.empty.filesWith "oldName" ∨
          (⟨"", ["uses.py"]⟩ : Path) ∈ samplePaths ∧
            Refers sampleProject ⟨"", ["uses.py"]⟩ "oldName") :=
  have hfault : sampleAnalysis.fault = none := by decide +kernel
  have hplan : sampleTransformation ∈ sampleAnalysis.map.plan .usual := by decide +kernel
  ⟨hfault, hplan, mem_affected_iff_refers .usual .empty sampleProject ⟨"", []⟩ samplePaths hfault
    sampleTransformation hplan ⟨"", ["uses.py"]⟩⟩

def occursIn [Dialect] (d : Disk) (p : Path) (test : Tree → Bool) : Bool :=
  match Source.ofFile d p with
  | .ok source => source.tree.preorder.any test
  | .error _ => false

/-- A member of a member, and a name from a package that is given by dots alone, are references
to a planned name in files that the plan does not concern. -/
theorem unnamed_owners_missed :
    sampleTransformation ∈ sampleAnalysis.map.plan .usual ∧
      (occursIn sampleProject ⟨"", ["chain.py"]⟩ fun n => n.label = .attr "oldName" .load) ∧
      (⟨"", ["chain.py"]⟩ : Path) ∉ sampleTransformation.affected ∧
      (occursIn sampleProject ⟨"", ["dots.py"]⟩ fun n => n.label = .importFrom none 1 ∧
        n.children.any fun c => c.label = .importName "oldName" none) ∧
      (⟨"", ["dots.py"]⟩ : Path) ∉ sampleTransformation.affected := by
  decide +kernel

end Restyle.Symbol

import Restyle.Proofs.Lists
import Restyle.Proofs.Symbol.References

/-!
Plans are exact. The names that a plan changes are those whose deciding definition has to have
another name. Each of them has one transformation, and the transformations come in the order in
which the names were defined first. A transformation concerns the files in which its name is known,
each of them once, and these are the files in which the name gets the new one.
-/

namespace Restyle.Symbol

open Disk (Path)

/-! ### The deciding definition -/

theorem shallowest_eq_none_iff {ds : List Definition} : shallowest ds = none ↔ ds = [] := by
  cases ds with
  | nil => simp [shallowest]
  | cons d ds => cases h : shallowest ds <;> simp [shallowest, h, ite_eq_iff]

/-- The first one among those with the least depth. -/
theorem shallowest_eq_some_iff {ds : List Definition} {d : Definition} :
    shallowest ds = some d ↔ ∃ before after, ds = before ++ d :: after ∧
      (∀ e ∈ before, depth d < depth e) ∧ ∀ e ∈ after, depth d ≤ depth e := by
  induction ds generalizing d with
  | nil => simp [shallowest]
  | cons a ds ih =>
    constructor
    · intro h
      cases hrest : shallowest ds with
      | none =>
        obtain rfl : a = d := by simpa [shallowest, hrest] using h
        exact ⟨[], ds, rfl, by simp, by simp [shallowest_eq_none_iff.mp hrest]⟩
      | some e =>
        obtain ⟨before, after, rfl, hbefore, hafter⟩ := ih.mp hrest
        simp only [shallowest, hrest] at h
        -- the first one is taken unless one of the others lies above it
        split at h
        case isTrue hle =>
          obtain rfl := Option.some.inj h
          refine ⟨[], before ++ e :: after, rfl, by simp, fun x hx => ?_⟩
          rcases List.mem_append.mp hx with hx | hx
          · exact Nat.le_trans hle (Nat.le_of_lt (hbefore x hx))
          · rcases List.mem_cons.mp hx with rfl | hx
            · exact hle
            · exact Nat.le_trans hle (hafter x hx)
        case isFalse hlt =>
          obtain rfl := Option.some.inj h
          refine ⟨a :: before, after, rfl, ?_, hafter⟩
          exact List.forall_mem_cons.mpr ⟨Nat.lt_of_not_le hlt, hbefore⟩
    · rintro ⟨before, after, hds, hbefore, hafter⟩
      cases before with
      | nil =>
        obtain ⟨rfl, rfl⟩ := List.cons.inj hds
        cases hrest : shallowest ds with
        | none => simp [shallowest, hrest]
        | some e => simp [shallowest, hrest, hafter e (mem_of_shallowest hrest)]
      | cons b before =>
        rw [List.cons_append] at hds
        obtain ⟨rfl, rfl⟩ := List.cons.inj hds
        obtain ⟨hfirst, hbefore⟩ := List.forall_mem_cons.mp hbefore
        have hrest := ih.mpr ⟨before, after, rfl, hbefore, hafter⟩
        simp [shallowest, hrest, Nat.not_le.mpr hfirst]

/-- The definition that decides about a name: the only one, or the first one with the shortest path
among those outside of tests, or else the first one. -/
inductive IsPrimary (ds : List Definition) (d : Definition) : Prop
  | only (h : ds = [d])
  | outside (hmany : ds.length ≠ 1) (before after : List Definition)
      (h : ds = before ++ d :: after) (hd : isTestPath d.path = false)
      (hbefore : ∀ e ∈ before, isTestPath e.path = false → depth d < depth e)
      (hafter : ∀ e ∈ after, isTestPath e.path = false → depth d ≤ depth e)
  | first (hmany : ds.length ≠ 1) (htests : ∀ e ∈ ds, isTestPath e.path = true)
      (h : ds.head? = some d)

section Primary

variable {ds : List Definition} {d : Definition}

theorem primary?_of_many (h : ds.length ≠ 1) :
    primary? ds = (shallowest (ds.filter (!isTestPath ·.path))).or ds.head? := by
  rcases ds with _ | ⟨a, _ | ⟨b, rest⟩⟩
  · rfl
  · exact absurd rfl h
  · rfl

/-- The shallowest definition outside of tests, by the list of all definitions. -/
theorem shallowest_outside_iff :
    shallowest (ds.filter (!isTestPath ·.path)) = some d ↔
      ∃ before after, ds = before ++ d :: after ∧ isTestPath d.path = false ∧
        (∀ e ∈ before, isTestPath e.path = false → depth d < depth e) ∧
        ∀ e ∈ after, isTestPath e.path = false → depth d ≤ depth e := by
  rw [shallowest_eq_some_iff]
  constructor
  · rintro ⟨before, after, hds, hbefore, hafter⟩
    obtain ⟨left, right, rfl, rfl, hright⟩ := List.filter_eq_append_iff.mp hds
    obtain ⟨tests, rest, rfl, htests, hd, rfl⟩ := List.filter_eq_cons_iff.mp hright
    refine ⟨left ++ tests, rest, by simp, by simpa using hd, fun e he houtside => ?_,
      fun e he houtside => hafter e (by simp [he, houtside])⟩
    rcases List.mem_append.mp he with he | he
    · exact hbefore e (by simp [he, houtside])
    · exact absurd houtside (by simpa using htests e he)
  · rintro ⟨before, after, rfl, hd, hbefore, hafter⟩
    refine ⟨before.filter (!isTestPath ·.path), after.filter (!isTestPath ·.path), by simp [hd],
      fun e he => ?_, fun e he => ?_⟩
    · obtain ⟨he, houtside⟩ := List.mem_filter.mp he
      exact hbefore e he (by simpa using houtside)
    · obtain ⟨he, houtside⟩ := List.mem_filter.mp he
      exact hafter e he (by simpa using houtside)

theorem primary?_eq_some_iff : primary? ds = some d ↔ IsPrimary ds d := by
  by_cases hone : ds.length = 1
  · obtain ⟨a, rfl⟩ := List.length_eq_one_iff.mp hone
    constructor
    · intro h
      exact .only (by simpa [primary?] using h)
    · rintro (h | ⟨hmany, -⟩ | ⟨hmany, -⟩)
      · simpa [primary?] using h
      · exact absurd rfl hmany
      · exact absurd rfl hmany
  · rw [primary?_of_many hone, Option.or_eq_some_iff, shallowest_outside_iff]
    constructor
    · rintro (⟨before, after, h, hd, hbefore, hafter⟩ | ⟨hnone, hhead⟩)
      · exact .outside hone before after h hd hbefore hafter
      · refine .first hone (fun e he => ?_) hhead
        have houtside := List.filter_eq_nil_iff.mp (shallowest_eq_none_iff.mp hnone) e he
        simpa using houtside
    · rintro (h | ⟨-, before, after, h, hd, hbefore, hafter⟩ | ⟨-, htests, hhead⟩)
      · exact absurd (by simp [h]) hone
      · exact .inl ⟨before, after, h, hd, hbefore, hafter⟩
      · refine .inr ⟨shallowest_eq_none_iff.mpr (List.filter_eq_nil_iff.mpr fun e he => ?_), hhead⟩
        simp [htests e he]

end Primary

/-- A name has to become another one: the rule for its deciding definition is on, and the
convention of this rule makes of it another name that is not empty. -/
def Due (s : Settings) (ds : List Definition) (x new : String) : Prop :=
  ∃ d g convention, IsPrimary ds d ∧ NamingGroup.ofKind? d.element.kind = some g ∧
    s.naming g = true ∧ s.convention g = some convention ∧ convention ≠ "" ∧
    Naming.recaseAs x convention = new ∧ new ≠ "" ∧ new ≠ x

theorem SymbolMap.plannedName?_eq_some_iff {s : Settings} {m : SymbolMap} (hm : m.Tidy)
    {x new : String} :
    m.plannedName? s x = some new ↔ Due s (Index.all m.definitions x) x new := by
  simp only [plannedName?, Option.bind_eq_some_iff, primary?_eq_some_iff,
    Settings.newName?_eq_some_iff]
  constructor
  · rintro ⟨d, hd, g, convention, h⟩
    rw [hm.names x d (mem_of_primary? (primary?_eq_some_iff.mpr hd))] at h
    exact ⟨d, g, convention, hd, h⟩
  · rintro ⟨d, g, convention, hd, h⟩
    refine ⟨d, hd, g, convention, ?_⟩
    rwa [hm.names x d (mem_of_primary? (primary?_eq_some_iff.mpr hd))]

/-! ### The order of a plan -/

/-- A map that was built by analyses, with the definitions in the order in which they were found. -/
inductive Built [Dialect] : List Definition → SymbolMap → Prop
  | empty : Built [] .empty
  | analyze {ds : List Definition} {m : SymbolMap} (h : Built ds m) (d : Disk) (root : Path)
      (paths : List Path) (hfault : (m.analyze d root paths).fault = none) :
      Built (ds ++ paths.flatMap (definitionsOf d)) (m.analyze d root paths).map

def firstPlace (ds : List Definition) (x : String) : Nat := (ds.map (·.element.name)).idxOf x

namespace Built

variable {ds : List Definition} {m : SymbolMap}

theorem tidy [Dialect] (h : Built ds m) : m.Tidy := by
  induction h with
  | empty => exact SymbolMap.tidy_empty
  | analyze _ d root paths hfault ih => exact (adds_analyze hfault).tidy ih

theorem inOrder [Dialect] (h : Built ds m) :
    Index.InOrder (ds.map (·.element.name)) m.definitions.keys := by
  induction h with
  | empty => exact .nil
  | analyze _ d root paths hfault ih =>
    rw [List.map_append]
    exact (adds_analyze hfault).order _ ih

/-- A plan follows the order of the first definitions. -/
theorem pairwise_plan [Dialect] (h : Built ds m) (s : Settings) :
    (m.plan s).Pairwise fun t u => firstPlace ds t.old < firstPlace ds u.old := by
  have horder := h.inOrder.order
  rw [Table.keys, List.pairwise_map] at horder
  rw [SymbolMap.plan, List.pairwise_filterMap]
  refine horder.imp fun {entry entry'} hlt t ht t' ht' => ?_
  rw [(SymbolMap.transformation?_concerns ht).1, (SymbolMap.transformation?_concerns ht').1]
  exact hlt

end Built

/-! ### What a transformation concerns -/

/-- A transformation as a map has it: the deciding definition gives its file and its kind, and it
concerns the files with a definition, a usage or an import of the name, each of them once. -/
structure Transformation.Exact (m : SymbolMap) (t : Transformation) : Prop where
  primary : ∃ d, IsPrimary (Index.all m.definitions t.old) d ∧ t.file = d.path ∧
    t.kind = d.element.kind.label
  nodup : t.affected.Nodup
  file_mem : t.file ∈ t.affected
  mem_iff : ∀ p, p ∈ t.affected ↔ (∃ d ∈ Index.all m.definitions t.old, d.path = p) ∨
    (∃ u ∈ Index.all m.usages t.old, u.path = p) ∨ ∃ i ∈ m.imports, t.old ∈ i.names ∧ i.path = p

namespace SymbolMap

variable {s : Settings} {m : SymbolMap}

theorem exists_primary_of_mem_plan (hm : m.Tidy) {t : Transformation} (h : t ∈ m.plan s) :
    ∃ d, primary? (Index.all m.definitions t.old) = some d ∧ t.file = d.path ∧
      t.kind = d.element.kind.label := by
  obtain ⟨⟨name, ds⟩, hentry, ht⟩ := List.mem_filterMap.mp h
  rw [(transformation?_concerns ht).1, Index.all_of_mem hm.keys hentry]
  simp only [transformation?, Option.bind_eq_bind, Option.bind_eq_some_iff,
    Option.ite_none_left_eq_some, Option.some.injEq] at ht
  obtain ⟨d, hd, new, -, -, rfl⟩ := ht
  exact ⟨d, hd, rfl, rfl⟩

theorem exact_of_mem_plan (hm : m.Tidy) {t : Transformation} (h : t ∈ m.plan s) : t.Exact m := by
  obtain ⟨d, hd, hfile, hkind⟩ := exists_primary_of_mem_plan hm h
  have haffected := affected_of_mem_plan h
  have hmem (p : Path) := mem_filesWith (m := m) (x := t.old) (p := p)
  rw [← haffected] at hmem
  refine ⟨⟨d, primary?_eq_some_iff.mp hd, hfile, hkind⟩, ?_, ?_, hmem⟩
  · rw [haffected]
    exact nodup_eraseDups _
  · exact (hmem t.file).mpr (.inl ⟨d, mem_of_primary? hd, hfile.symm⟩)

/-- The names of a plan are those that have to become other ones. -/
theorem exists_mem_plan_iff (hm : m.Tidy) {x new : String} :
    (∃ t ∈ m.plan s, t.old = x ∧ t.new = new) ↔ Due s (Index.all m.definitions x) x new := by
  rw [← plannedName?_eq_some_iff hm]
  constructor
  · rintro ⟨t, ht, rfl, rfl⟩
    have hfile := (exact_of_mem_plan hm ht).file_mem
    exact ((mem_plan_iff hm).mp ⟨t, ht, rfl, rfl, hfile⟩).2
  · intro hplanned
    obtain ⟨d, hd, -⟩ := Option.bind_eq_some_iff.mp hplanned
    -- the file of the deciding definition is one that the name is known in
    have hknown : d.path ∈ m.filesWith x :=
      mem_filesWith.mpr (.inl ⟨d, mem_of_primary? hd, rfl⟩)
    obtain ⟨t, ht, hold, hnew, -⟩ := (mem_plan_iff hm).mpr ⟨hknown, hplanned⟩
    exact ⟨t, ht, hold, hnew⟩

end SymbolMap

/-- A plan has one transformation for each name that has to become another one, in the order of
their first definitions, and a file gets the new names of the transformations that concern it. -/
theorem plan_exact [Dialect] (s : Settings) {ds : List Definition} {m : SymbolMap}
    (h : Built ds m) : ((m.plan s).Pairwise fun t u => firstPlace ds t.old < firstPlace ds u.old) ∧
      (∀ x new, (∃ t ∈ m.plan s, t.old = x ∧ t.new = new) ↔
        Due s (Index.all m.definitions x) x new) ∧
      (∀ t ∈ m.plan s, t.Exact m) ∧
      ∀ p x new, (renamesIn (m.plan s) p).get? x = some new ↔
        ∃ t ∈ m.plan s, t.old = x ∧ t.new = new ∧ p ∈ t.affected := by
  have hm := h.tidy
  refine ⟨h.pairwise_plan s, fun x new => SymbolMap.exists_mem_plan_iff hm,
    fun t ht => SymbolMap.exact_of_mem_plan hm ht, fun p x new => ?_⟩
  rw [SymbolMap.get?_renamesIn_plan hm, SymbolMap.mem_plan_iff hm]

/-- A name with three definitions, in a test, deep in a package and at the root. -/
def thriceDefined : Disk :=
  ⟨.dir .directory
    [("tests", .dir .directory
        [("a.py", .file .file (Text.encode "class oldName: pass\n".toList))]),
      ("pack", .dir .directory
        [("b.py", .file .file (Text.encode "oldName = 1\n".toList))]),
      ("c.py", .file .file (Text.encode "def oldName(): pass\n".toList))], false, some []⟩

def thricePaths : List Path := [⟨"", ["tests", "a.py"]⟩, ⟨"", ["pack", "b.py"]⟩, ⟨"", ["c.py"]⟩]

def thriceAnalysis : SymbolMap.Analysis :=
  SymbolMap.empty.analyze thriceDefined ⟨"", []⟩ thricePaths

/-- The function at the root decides. -/
def thriceTransformation : Transformation :=
  ⟨"oldName", "old_name", "function", ⟨"", ["c.py"]⟩, thricePaths⟩

theorem plan_exact_sample :
    Built (thricePaths.flatMap (definitionsOf thriceDefined)) thriceAnalysis.map ∧
      thriceTransformation ∈ thriceAnalysis.map.plan .usual ∧
      thriceTransformation.Exact thriceAnalysis.map ∧
      Due .usual (Index.all thriceAnalysis.map.definitions "oldName") "oldName" "old_name" ∧
      ∀ p ∈ thricePaths,
        (renamesIn (thriceAnalysis.map.plan .usual) p).get? "oldName" = some "old_name" := by
  have hbuilt : Built (thricePaths.flatMap (definitionsOf thriceDefined)) thriceAnalysis.map :=
    Built.empty.analyze thriceDefined ⟨"", []⟩ thricePaths (by decide +kernel)
  have hplan : thriceTransformation ∈ thriceAnalysis.map.plan .usual := by decide +kernel
  obtain ⟨-, hdue, hexact, hrenames⟩ := plan_exact .usual hbuilt
  refine ⟨hbuilt, hplan, hexact _ hplan, (hdue _ _).mp ⟨_, hplan, rfl, rfl⟩, fun p hp => ?_⟩
  exact (hrenames _ _ _).mpr ⟨_, hplan, rfl, rfl, hp⟩

end Restyle.Symbol

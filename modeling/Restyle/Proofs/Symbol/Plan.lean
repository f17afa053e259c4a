import Restyle.Proofs.Config.Settings
import Restyle.Proofs.Symbol.Analysis

/-!
What is planned for a name. One definition decides about it, and if that one has to have another
name, then all files in which the name is known get it.
-/

namespace Restyle.Symbol

open Disk (Path)

variable {m : SymbolMap} {ds : List Definition}

/-! ### The deciding definition -/

theorem mem_of_shallowest {found : Definition} (h : shallowest ds = some found) : found ∈ ds := by
  induction ds generalizing found with
  | nil => cases h
  | cons d ds ih =>
    unfold shallowest at h
    cases hrest : shallowest ds with
    | none =>
      rw [hrest] at h
      cases h
      exact List.mem_cons_self
    | some e =>
      rw [hrest] at h
      dsimp only at h
      split at h
      · cases h
        exact List.mem_cons_self
      · cases h
        exact List.mem_cons_of_mem d (ih hrest)

theorem mem_of_primary? {found : Definition} (h : primary? ds = some found) : found ∈ ds := by
  unfold primary? at h
  split at h
  · cases h
    exact List.mem_singleton.mpr rfl
  · rcases Option.or_eq_some_iff.mp h with hshallow | ⟨-, hhead⟩
    · exact (List.mem_filter.mp (mem_of_shallowest hshallow)).1
    · exact List.mem_of_head? hhead

/-! ### Maps in order -/

namespace SymbolMap

/-- Every name has one entry, which holds only definitions of this name. -/
structure Tidy (m : SymbolMap) : Prop where
  keys : m.definitions.keys.Nodup
  names : ∀ x, ∀ found ∈ Index.all m.definitions x, found.element.name = x

theorem tidy_empty : Tidy empty where
  keys := List.nodup_nil
  names := by simp [empty]

end SymbolMap

theorem Adds.tidy {us : List Usage} {is : List Import} {m' : SymbolMap} (h : Adds ds us is m m')
    (hm : m.Tidy) : m'.Tidy where
  keys := h.keys hm.keys
  names := by
    intro x found hfound
    rw [h.definitions] at hfound
    rcases List.mem_append.mp hfound with hold | hnew
    · exact hm.names x found hold
    · exact of_decide_eq_true (List.mem_filter.mp hnew).2

theorem tidy_analyze [Dialect] {d : Disk} {root : Path} {paths : List Path}
    (h : (SymbolMap.empty.analyze d root paths).fault = none) :
    (SymbolMap.empty.analyze d root paths).map.Tidy := (adds_analyze h).tidy SymbolMap.tidy_empty

namespace SymbolMap

variable {s : Settings} {t : Transformation}

/-- The new name of a name, by the definition that decides about it. -/
def plannedName? (m : SymbolMap) (s : Settings) (x : String) : Option String :=
  (primary? (Index.all m.definitions x)).bind fun found => s.newName? found.element

theorem transformation?_concerns {x : String} (h : m.transformation? s x ds = some t) :
    t.old = x ∧ t.affected = m.filesWith x := by
  unfold transformation? at h
  obtain ⟨found, -, h⟩ := Option.bind_eq_some_iff.mp h
  obtain ⟨new, -, h⟩ := Option.bind_eq_some_iff.mp h
  split at h
  · cases h
  · cases h
    exact ⟨rfl, rfl⟩

theorem affected_of_mem_plan (h : t ∈ m.plan s) : t.affected = m.filesWith t.old := by
  obtain ⟨⟨name, ds⟩, -, ht⟩ := List.mem_filterMap.mp h
  obtain ⟨hold, haffected⟩ := transformation?_concerns ht
  rw [hold, haffected]

theorem new_of_transformation? {x : String} (hnames : ∀ found ∈ ds, found.element.name = x)
    (h : m.transformation? s x ds = some t) :
    ((primary? ds).bind fun found => s.newName? found.element) = some t.new := by
  unfold transformation? at h
  obtain ⟨found, hfound, h⟩ := Option.bind_eq_some_iff.mp h
  obtain ⟨new, hnew, h⟩ := Option.bind_eq_some_iff.mp h
  have hname := hnames found (mem_of_primary? hfound)
  split at h
  · cases h
  · rename_i hkeep
    cases h
    rw [hfound, Option.bind_some, Settings.newName?, hnew, Option.bind_some, hname, if_neg hkeep]

theorem exists_transformation? (m : SymbolMap) {x new : String}
    (hnames : ∀ found ∈ ds, found.element.name = x)
    (h : ((primary? ds).bind fun found => s.newName? found.element) = some new) :
    ∃ t, m.transformation? s x ds = some t ∧ t.new = new := by
  obtain ⟨found, hfound, h⟩ := Option.bind_eq_some_iff.mp h
  have hname := hnames found (mem_of_primary? hfound)
  unfold Settings.newName? at h
  obtain ⟨required, hrequired, h⟩ := Option.bind_eq_some_iff.mp h
  split at h
  · cases h
  · rename_i hkeep
    cases h
    rw [hname] at hkeep
    refine ⟨⟨x, new, found.element.kind.label, found.path, m.filesWith x⟩, ?_, rfl⟩
    unfold transformation?
    rw [hfound, Option.bind_eq_bind, Option.bind_some, hrequired, Option.bind_eq_bind,
      Option.bind_some, if_neg hkeep]

/-- A plan is made of the names whose deciding definition has to have another one. -/
theorem mem_plan_iff (hm : m.Tidy) {x new : String} {p : Path} :
    (∃ t ∈ m.plan s, t.old = x ∧ t.new = new ∧ p ∈ t.affected) ↔
      p ∈ m.filesWith x ∧ m.plannedName? s x = some new := by
  constructor
  · rintro ⟨t, ht, rfl, rfl, hp⟩
    obtain ⟨⟨name, ds⟩, hentry, ht⟩ := List.mem_filterMap.mp ht
    have hall := Index.all_of_mem hm.keys hentry
    obtain ⟨hold, haffected⟩ := transformation?_concerns ht
    have hnew := new_of_transformation? (fun found hfound => hm.names name found (hall ▸ hfound)) ht
    rw [haffected] at hp
    rw [hold, plannedName?, hall]
    exact ⟨hp, hnew⟩
  · rintro ⟨hp, hplanned⟩
    obtain ⟨t, ht, hnew⟩ := exists_transformation? m (hm.names x) hplanned
    obtain ⟨hold, haffected⟩ := transformation?_concerns ht
    refine ⟨t, List.mem_filterMap.mpr ⟨(x, Index.all m.definitions x), ?_, ht⟩, hold, hnew, ?_⟩
    · apply (Table.get?_eq_some_iff_mem hm.keys).mp
      cases hget : Table.get? m.definitions x with
      | some ds =>
        unfold Index.all
        rw [hget, Option.getD_some]
      | none =>
        -- a name without entry has no deciding definition
        have hnone : Index.all m.definitions x = [] := by
          unfold Index.all
          rw [hget, Option.getD_none]
        rw [plannedName?, hnone] at hplanned
        cases hplanned
    · rw [haffected]
      exact hp

theorem nodup_old_plan (hm : m.Tidy) : ((m.plan s).map (·.old)).Nodup := by
  have hkeys := hm.keys
  unfold Table.keys at hkeys
  unfold plan
  rw [List.Nodup, List.pairwise_map] at hkeys ⊢
  rw [List.pairwise_filterMap]
  refine hkeys.imp ?_
  rintro ⟨name, ds⟩ ⟨name', ds'⟩ hne t ht t' ht'
  rw [(transformation?_concerns ht).1, (transformation?_concerns ht').1]
  exact hne

theorem get?_renamesIn_plan (hm : m.Tidy) {x new : String} {p : Path} :
    (renamesIn (m.plan s) p).get? x = some new ↔
      p ∈ m.filesWith x ∧ m.plannedName? s x = some new := by
  have hnodup : ((((m.plan s).filter (·.affected.contains p)).map
      fun t => (t.old, t.new)).map (·.1)).Nodup := by
    rw [List.map_map]
    exact (List.filter_sublist.map _).nodup (nodup_old_plan hm)
  rw [renamesIn, Table.get?_ofList_eq_some_iff hnodup, ← mem_plan_iff hm]
  simp [and_assoc, and_comm]

end SymbolMap

end Restyle.Symbol

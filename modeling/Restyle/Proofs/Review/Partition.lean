import Mathlib.Data.List.Count
import Restyle.Proofs.Review.Grouping

/-!
Grouping loses no result and makes none up. The main statement is that of results with distinct
paths each one leads exactly one group or follows others, that those with changes of their own lead
and the others follow wherever they can, and that the groups keep the order of the results.
-/

namespace Restyle.Review

def leadCount (gs : List Group) (r : FileResult) : Nat := gs.countP (·.definition = r)

/-- What groups are to make of results. -/
structure Partitions (rs : List FileResult) (gs : List Group) : Prop where
  /-- A result with changes of its own leads one group, and follows in none. -/
  leads : ∀ r ∈ rs, isDefinition r = true → leadCount gs r = 1 ∧ ∀ g ∈ gs, r ∉ g.usages
  /-- Another result follows one with changes of its own and leads no group, or it is a group for
  itself and follows in none. -/
  followsOrAlone : ∀ r ∈ rs, isDefinition r = false →
    ((∃ g ∈ gs, isDefinition g.definition = true ∧ r ∈ g.usages) ∧ leadCount gs r = 0) ∨
      (leadCount gs r = 1 ∧ (∀ g ∈ gs, g.definition = r → g.usages = []) ∧ ∀ g ∈ gs, r ∉ g.usages)
  /-- Nothing follows twice in one group. -/
  once : ∀ g ∈ gs, g.usages.Nodup
  /-- There is nothing but the results, and only results without changes of their own follow. -/
  among : ∀ g ∈ gs, g.definition ∈ rs ∧ ∀ u ∈ g.usages, u ∈ rs ∧ isDefinition u = false
  /-- The groups of results with changes of their own come first; each part, and what follows in a
  group, is in the order of the results. -/
  order : ∃ linked alone, gs = linked ++ alone ∧
    linked.map (·.definition) = rs.filter isDefinition ∧
    (alone.map (·.definition)).Sublist (rs.filter (!isDefinition ·)) ∧
    ∀ g ∈ gs, g.usages.Sublist rs

variable {rs : List FileResult} {r : FileResult} {g : Group}

theorem leadCount_groups (rs : List FileResult) (r : FileResult) :
    leadCount (groups rs) r = (leaders rs).count r := by
  rw [← map_definition_groups, List.count, List.countP_map]
  rfl

theorem mem_followers : r ∈ followers rs ↔ r ∈ rs ∧ isDefinition r = false := by
  simp [followers]

/-- What follows in a group is in the order of the results. -/
theorem usages_sublist (hg : g ∈ groups rs) : g.usages.Sublist (followers rs) := by
  rcases List.mem_append.mp hg with hlinked | halone
  · obtain ⟨d, -, rfl⟩ := List.mem_map.mp hlinked
    exact List.filter_sublist
  · obtain ⟨d, -, rfl⟩ := List.mem_map.mp halone
    exact List.nil_sublist _

/-- A group that a result without changes of its own leads has nothing that follows. -/
theorem usages_eq_nil (hg : g ∈ groups rs) (hown : isDefinition g.definition = false) :
    g.usages = [] := by
  rcases List.mem_append.mp hg with hlinked | halone
  · obtain ⟨d, hd, rfl⟩ := List.mem_map.mp hlinked
    have hdefinition : isDefinition d = true := (List.mem_filter.mp hd).2
    exact absurd hdefinition (Bool.eq_false_iff.mp hown)
  · obtain ⟨d, -, rfl⟩ := List.mem_map.mp halone
    rfl

/-- A result without changes of its own leads a group exactly if its path follows nowhere. -/
theorem mem_leaders_iff (hr : r ∈ rs) (hown : isDefinition r = false) :
    r ∈ leaders rs ↔ r.path ∉ followedPaths rs := by
  have hnot : r ∉ rs.filter isDefinition := fun hmem =>
    absurd (List.mem_filter.mp hmem).2 (Bool.eq_false_iff.mp hown)
  have hfollower : r ∈ followers rs := mem_followers.mpr ⟨hr, hown⟩
  simp [leaders, hnot, hfollower]

section Distinct

variable (h : (rs.map (·.path)).Nodup)

include h

theorem nodup_leaders : (leaders rs).Nodup := by
  have hall : (rs.filter isDefinition ++ followers rs).Nodup :=
    (List.filter_append_perm isDefinition rs).nodup_iff.mpr (List.Nodup.of_map _ h)
  exact (leaders_sublist rs).nodup hall

/-- A result whose path follows somewhere does follow there: no other result has its path. -/
theorem exists_follows (hr : r ∈ rs) (hpath : r.path ∈ followedPaths rs) :
    ∃ g ∈ groups rs, isDefinition g.definition = true ∧ r ∈ g.usages := by
  obtain ⟨g, hg, hmem⟩ := List.mem_flatMap.mp hpath
  obtain ⟨u, hu, hsame⟩ := List.mem_map.mp hmem
  have hgroup : g ∈ groups rs := List.mem_append_left _ hg
  obtain ⟨d, hd, rfl⟩ := List.mem_map.mp hg
  have hrs : u ∈ rs := (mem_followers.mp (mem_usages hgroup hu).1).1
  obtain rfl : u = r := List.inj_on_of_nodup_map h hrs hr hsame
  exact ⟨_, hgroup, (List.mem_filter.mp hd).2, hu⟩

theorem partitions_leads (hr : r ∈ rs) (hown : isDefinition r = true) :
    leadCount (groups rs) r = 1 ∧ ∀ g ∈ groups rs, r ∉ g.usages := by
  have hleads : r ∈ leaders rs := List.mem_append_left _ (List.mem_filter.mpr ⟨hr, hown⟩)
  refine ⟨?_, fun g hg hu => ?_⟩
  · rw [leadCount_groups, List.count_eq_one_of_mem (nodup_leaders h) hleads]
  · have hlacks := (mem_followers.mp (mem_usages hg hu).1).2
    exact absurd hown (Bool.eq_false_iff.mp hlacks)

theorem partitions_followsOrAlone (hr : r ∈ rs) (hown : isDefinition r = false) :
    ((∃ g ∈ groups rs, isDefinition g.definition = true ∧ r ∈ g.usages) ∧
        leadCount (groups rs) r = 0) ∨
      (leadCount (groups rs) r = 1 ∧ (∀ g ∈ groups rs, g.definition = r → g.usages = []) ∧
        ∀ g ∈ groups rs, r ∉ g.usages) := by
  rw [leadCount_groups]
  by_cases hpath : r.path ∈ followedPaths rs
  · refine .inl ⟨exists_follows h hr hpath, List.count_eq_zero_of_not_mem ?_⟩
    rw [mem_leaders_iff hr hown]
    exact not_not_intro hpath
  · have hleads : r ∈ leaders rs := (mem_leaders_iff hr hown).mpr hpath
    refine .inr ⟨List.count_eq_one_of_mem (nodup_leaders h) hleads, ?_, ?_⟩
    · rintro g hg rfl
      exact usages_eq_nil hg hown
    · exact fun g hg hu => hpath (mem_usages hg hu).2

/-- Groups of results with distinct paths lose none of them: each result leads one group or follows
in some, according to whether it has changes of its own, and the order stays. -/
theorem groups_lose_nothing : Partitions rs (groups rs) where
  leads _ := partitions_leads h
  followsOrAlone _ := partitions_followsOrAlone h
  once _ hg := ((usages_sublist hg).trans List.filter_sublist).nodup (List.Nodup.of_map _ h)
  among g hg := by
    refine ⟨mem_of_mem_groups hg (.inl rfl), fun u hu => ?_⟩
    exact mem_followers.mp (mem_usages hg hu).1
  order := by
    refine ⟨_, _, rfl, ?_, ?_, fun g hg => (usages_sublist hg).trans List.filter_sublist⟩
    · simp [groupOf, Function.comp_def]
    · simp only [List.map_map, Function.comp_def, List.map_id']
      exact List.filter_sublist

end Distinct

/-- A file with a name of its own to change, a file that follows it, and one that mentions another
name. -/
def mixedResults : List FileResult :=
  [.processed ⟨"", ["uses.py"]⟩ [] [] ["Renamed function 'oldName' to 'old_name' (cross-file)"],
    .processed ⟨"", ["names.py"]⟩ [] [] ["Renamed function 'oldName' to 'old_name'"],
    .processed ⟨"", ["other.py"]⟩ [] [] ["Renamed class 'shape' to 'Shape' (cross-file)"]]

theorem groups_lose_nothing_sample :
    (mixedResults.map (·.path)).Nodup ∧ Partitions mixedResults (groups mixedResults) ∧
      (groups mixedResults).map (fun g => (g.definition.path.name, g.usages.map (·.path.name))) =
        [("names.py", ["uses.py"]), ("other.py", [])] :=
  have hpaths : (mixedResults.map (·.path)).Nodup := by decide
  ⟨hpaths, groups_lose_nothing hpaths, by decide +kernel⟩

end Restyle.Review

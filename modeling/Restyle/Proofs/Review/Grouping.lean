import Mathlib.Data.List.Nodup
import Restyle.Review.Group

/-!
How results are grouped. Every group is led by a file with changes of its own, or by a file that
follows no other one; files that follow lead no group. If the paths of the results are distinct,
so are the paths of the files that lead.
-/

namespace Restyle.Review

open Disk (Path)

variable {rs : List FileResult}

/-- The results without changes of their own. -/
def followers (rs : List FileResult) : List FileResult := rs.filter (!isDefinition ·)

def followedPaths (rs : List FileResult) : List Path :=
  ((rs.filter isDefinition).map (groupOf (followers rs))).flatMap fun g => g.usages.map (·.path)

def leaders (rs : List FileResult) : List FileResult :=
  rs.filter isDefinition ++ (followers rs).filter (!(followedPaths rs).contains ·.path)

theorem map_definition_groups (rs : List FileResult) :
    (groups rs).map (·.definition) = leaders rs := by
  simp [groups, leaders, followers, followedPaths, groupOf, Function.comp_def]

theorem leaders_sublist (rs : List FileResult) :
    (leaders rs).Sublist (rs.filter isDefinition ++ followers rs) :=
  List.Sublist.append (List.Sublist.refl _) List.filter_sublist

theorem mem_of_mem_leaders {r : FileResult} (h : r ∈ leaders rs) : r ∈ rs :=
  (List.filter_append_perm isDefinition rs).mem_iff.mp ((leaders_sublist rs).mem h)

theorem mem_usages {g : Group} {u : FileResult} (hg : g ∈ groups rs) (hu : u ∈ g.usages) :
    u ∈ followers rs ∧ u.path ∈ followedPaths rs := by
  rcases List.mem_append.mp hg with hlinked | horphan
  · obtain ⟨r, hr, rfl⟩ := List.mem_map.mp hlinked
    have hfollower : u ∈ followers rs := (List.mem_filter.mp hu).1
    refine ⟨hfollower, ?_⟩
    exact List.mem_flatMap.mpr ⟨_, hlinked, List.mem_map_of_mem hu⟩
  · obtain ⟨r, hr, rfl⟩ := List.mem_map.mp horphan
    cases hu

theorem mem_of_mem_groups {g : Group} {r : FileResult} (hg : g ∈ groups rs)
    (hr : r = g.definition ∨ r ∈ g.usages) : r ∈ rs := by
  rcases hr with rfl | hr
  · apply mem_of_mem_leaders
    rw [← map_definition_groups]
    exact List.mem_map_of_mem hg
  · exact (List.mem_filter.mp (mem_usages hg hr).1).1

/-- What is visited and written when groups are reviewed does not mix: the files that lead are
distinct, and none of them follows another one. -/
structure Apart (gs : List Group) : Prop where
  distinct : (gs.map (·.definition.path)).Nodup
  separate : ∀ g ∈ gs, ∀ h ∈ gs, ∀ u ∈ h.usages, u.path ≠ g.definition.path

theorem apart_groups (h : (rs.map (·.path)).Nodup) : Apart (groups rs) := by
  have hperm := (List.filter_append_perm isDefinition rs).map (·.path)
  constructor
  · have hleaders : ((leaders rs).map (·.path)).Nodup :=
      ((leaders_sublist rs).map _).nodup (hperm.nodup_iff.mpr h)
    rw [← map_definition_groups, List.map_map] at hleaders
    exact hleaders
  · intro g hg k hk u hu hpath
    obtain ⟨hfollower, hfollowed⟩ := mem_usages hk hu
    have hleader : g.definition ∈ leaders rs := by
      rw [← map_definition_groups]
      exact List.mem_map_of_mem hg
    rcases List.mem_append.mp hleader with hdefinition | horphan
    · -- the two results are one, which cannot both have and lack changes of its own
      have hsame : u = g.definition := List.inj_on_of_nodup_map h
        (List.mem_filter.mp hfollower).1 (List.mem_filter.mp hdefinition).1 hpath
      have hhas := (List.mem_filter.mp hdefinition).2
      have hlacks := (List.mem_filter.mp hfollower).2
      rw [hsame, hhas] at hlacks
      cases hlacks
    · have hfree := (List.mem_filter.mp horphan).2
      rw [← hpath] at hfree
      simp [hfollowed] at hfree

end Restyle.Review

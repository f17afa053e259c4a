import Mathlib.Data.List.Perm.Basic
import Restyle.Syntax.Tree

/-!
The two ways to go through a tree meet the same nodes, each of them once.
-/

namespace Restyle.Syntax.Tree

theorem mem_preorders {n : Tree} {ts : List Tree} :
    n ∈ preorders ts ↔ ∃ t ∈ ts, n ∈ t.preorder := by
  induction ts with
  | nil => simp
  | cons t ts ih => simp [ih]

theorem mem_preorder {n t : Tree} :
    n ∈ t.preorder ↔ n = t ∨ ∃ c ∈ t.children, n ∈ c.preorder := by
  obtain ⟨l, r, s, cs⟩ := t
  rw [preorder_node, List.mem_cons, mem_preorders, children_node]

theorem self_mem_preorder (t : Tree) : t ∈ t.preorder := mem_preorder.mpr (.inl rfl)

theorem height_le_heights {c : Tree} {cs : List Tree} (h : c ∈ cs) : c.height ≤ heights cs := by
  induction cs with
  | nil => cases h
  | cons t ts ih =>
    rw [heights]
    rcases List.mem_cons.mp h with rfl | h
    · exact Nat.le_max_left _ _
    · exact Nat.le_trans (ih h) (Nat.le_max_right _ _)

theorem height_child_lt {c t : Tree} (h : c ∈ t.children) : c.height < t.height := by
  obtain ⟨l, r, s, cs⟩ := t
  rw [height]
  have hle := height_le_heights h
  rw [children_node] at hle
  omega

theorem child_mem_preorder {c n t : Tree} (hc : c ∈ n.children) (hn : n ∈ t.preorder) :
    c ∈ t.preorder := by
  -- from the root down to `n`, one level at a time
  induction hheight : t.height using Nat.strongRecOn generalizing t with
  | _ height ih =>
    rcases mem_preorder.mp hn with rfl | ⟨u, hu, hn⟩
    · exact mem_preorder.mpr (.inr ⟨c, hc, self_mem_preorder c⟩)
    · have hlt : u.height < height := hheight ▸ height_child_lt hu
      exact mem_preorder.mpr (.inr ⟨u, hu, ih u.height hlt hn rfl⟩)

/-- What a tree hands down to its children holds of all its nodes. -/
theorem forall_mem_preorder {P : Tree → Prop} (hdown : ∀ {t}, P t → ∀ c ∈ t.children, P c)
    {n t : Tree} (ht : P t) (hn : n ∈ t.preorder) : P n := by
  induction hheight : t.height using Nat.strongRecOn generalizing t with
  | _ height ih =>
    rcases mem_preorder.mp hn with rfl | ⟨u, hu, hn⟩
    · exact ht
    · exact ih u.height (hheight ▸ height_child_lt hu) (hdown ht u hu) hn rfl

theorem preorders_eq_flatMap (ts : List Tree) : preorders ts = ts.flatMap preorder := by
  induction ts with
  | nil => rfl
  | cons t ts ih => rw [preorders_cons, ih, List.flatMap_cons]

theorem preorder_eq_cons (t : Tree) : t.preorder = [t] ++ t.children.flatMap preorder := by
  obtain ⟨l, r, s, cs⟩ := t
  rw [preorder_node, preorders_eq_flatMap, children_node, List.singleton_append]

/-- As many levels as the highest tree has hold all nodes, each as often as the trees do. -/
theorem perm_levels {depth : Nat} {level : List Tree} (h : ∀ t ∈ level, t.height ≤ depth) :
    (levels depth level).Perm (level.flatMap preorder) := by
  induction depth generalizing level with
  | zero =>
    have hempty : level = [] := by
      rw [List.eq_nil_iff_forall_not_mem]
      intro t ht
      obtain ⟨l, r, s, cs⟩ := t
      have hheight := h _ ht
      rw [height] at hheight
      omega
    rw [hempty]
    exact .refl _
  | succ depth ih =>
    have hnext : ∀ c ∈ level.flatMap children, c.height ≤ depth := by
      intro c hc
      obtain ⟨t, ht, hc⟩ := List.mem_flatMap.mp hc
      have hlt := height_child_lt hc
      have hle := h t ht
      omega
    calc
      levels (depth + 1) level = level ++ levels depth (level.flatMap children) := rfl
      List.Perm _ (level ++ (level.flatMap children).flatMap preorder) :=
        (ih hnext).append_left level
      _ = level.flatMap ([·]) ++ level.flatMap fun t => t.children.flatMap preorder := by
        rw [List.flatMap_singleton', List.flatMap_assoc]
      List.Perm _ (level.flatMap fun t => [t] ++ t.children.flatMap preorder) :=
        List.flatMap_append_perm level _ _
      _ = level.flatMap preorder := by simp only [← preorder_eq_cons]

theorem perm_breadthFirst (t : Tree) : t.breadthFirst.Perm t.preorder := by
  have hheight : ∀ u ∈ [t], u.height ≤ t.height := by
    intro u hu
    exact Nat.le_of_eq (congrArg height (List.mem_singleton.mp hu))
  simpa [breadthFirst] using perm_levels hheight

theorem mem_breadthFirst {n t : Tree} : n ∈ t.breadthFirst ↔ n ∈ t.preorder :=
  (perm_breadthFirst t).mem_iff

end Restyle.Syntax.Tree

import Mathlib.Data.List.Forall2
import Restyle.Proofs.Rename.Words
import Restyle.Proofs.Source.Session

/-!
Renaming in trees as one relabelling. A renamed tree has the shape of the old one, and in it the
names, attributes, functions and classes have their new names, at every depth. All names are looked
up in the old tree, so that a new name is not looked up again, even if it is an old name as well.
Renaming twice is then renaming once, with the composed map.
-/

namespace Restyle

open Syntax

namespace NameMap

/-- What a map makes of a name: the new name that it has for it, or else the name itself. -/
inductive Sends (m : NameMap) : String → String → Prop
  | known {a b : String} (h : m.get? a = some b) : Sends m a b
  | kept {a : String} (h : m.get? a = none) : Sends m a a

theorem sends_iff {m : NameMap} {a b : String} : m.Sends a b ↔ b = m.apply a := by
  unfold apply
  refine ⟨fun h => ?_, ?_⟩
  · cases h with
    | known h => rw [h, Option.getD_some]
    | kept h => rw [h, Option.getD_none]
  · rintro rfl
    cases hget : m.get? a with
    | none => exact .kept hget
    | some b => exact .known hget

/-! ### One map after the other -/

/-- The names that either map has an entry for, with what the two maps make of them one after the
other. -/
def andThen (m₁ m₂ : NameMap) : NameMap :=
  .ofList ((m₁.keys ++ m₂.keys).map fun a => (a, m₂.apply (m₁.apply a)))

variable {m₁ : NameMap}

theorem get?_andThen (m₁ m₂ : NameMap) (a : String) :
    (m₁.andThen m₂).get? a =
      if a ∈ m₁.keys ++ m₂.keys then some (m₂.apply (m₁.apply a)) else none :=
  Table.get?_ofList_map _ _ a

theorem apply_andThen (m₁ m₂ : NameMap) (a : String) :
    (m₁.andThen m₂).apply a = m₂.apply (m₁.apply a) := by
  rw [apply, get?_andThen]
  by_cases h : a ∈ m₁.keys ++ m₂.keys
  · rw [if_pos h, Option.getD_some]
  · -- without an entry in either map, neither changes the name
    obtain ⟨h₁, h₂⟩ := not_or.mp fun hmem => h (List.mem_append.mpr hmem)
    rw [if_neg h, Option.getD_none, apply_of_not_mem h₁, apply_of_not_mem h₂]

theorem isEmpty_andThen (h : m₁.isEmpty = false) (m₂ : NameMap) :
    (m₁.andThen m₂).isEmpty = false := by
  have hne : m₁.entries ≠ [] := by simpa [Table.isEmpty] using h
  obtain ⟨entry, rest, hentries⟩ := List.exists_cons_of_ne_nil hne
  have hkey : entry.1 ∈ m₁.keys ++ m₂.keys := by simp [Table.keys, hentries]
  have hget := get?_andThen m₁ m₂ entry.1
  rw [if_pos hkey] at hget
  have hmem := Table.mem_of_lookup hget
  simpa [Table.isEmpty] using List.ne_nil_of_mem hmem

end NameMap

/-! ### Relabelled trees -/

namespace Syntax

variable {m m₁ m₂ : NameMap}

def renamedClasses : List String :=
  ["Name", "Attribute", "FunctionDef", "AsyncFunctionDef", "ClassDef"]

/-- A label before and after renaming. Only the name in it changes, and only in the kinds of nodes
that are renamed. -/
inductive Label.Relabelled (m : NameMap) : Label → Label → Prop
  | name {a b : String} (access : Access) (h : m.Sends a b) :
      Relabelled m (.name a access) (.name b access)
  | attr {a b : String} (access : Access) (h : m.Sends a b) :
      Relabelled m (.attr a access) (.attr b access)
  | functionDef {a b : String} (isAsync : Bool) (h : m.Sends a b) :
      Relabelled m (.functionDef isAsync a) (.functionDef isAsync b)
  | classDef {a b : String} (h : m.Sends a b) : Relabelled m (.classDef a) (.classDef b)
  | other {l : Label} (h : l.className ∉ renamedClasses) : Relabelled m l l

/-- Trees of one shape, node by node with the same parts and places, and with new names. -/
inductive Tree.Relabelled (m : NameMap) : Tree → Tree → Prop
  | node {l l' : Label} (r : Role) (s : Span) {cs cs' : List Tree} (hlabel : l.Relabelled m l')
      (hchildren : List.Forall₂ (Tree.Relabelled m) cs cs') :
      Tree.Relabelled m (.node l r s cs) (.node l' r s cs')

theorem Label.rename_of_not_mem {l : Label} (h : l.className ∉ renamedClasses) :
    l.rename m = l := by
  cases l with
  | name => simp [className, renamedClasses] at h
  | attr => simp [className, renamedClasses] at h
  | functionDef isAsync => cases isAsync <;> simp [className, renamedClasses] at h
  | classDef => simp [className, renamedClasses] at h
  | _ => rfl

theorem Label.relabelled_rename (m : NameMap) (l : Label) : l.Relabelled m (l.rename m) := by
  cases l with
  | name a access => exact .name access (NameMap.sends_iff.mpr rfl)
  | attr a access => exact .attr access (NameMap.sends_iff.mpr rfl)
  | functionDef isAsync a => exact .functionDef isAsync (NameMap.sends_iff.mpr rfl)
  | classDef a => exact .classDef (NameMap.sends_iff.mpr rfl)
  | forStmt isAsync => cases isAsync <;> exact .other (by decide)
  | withStmt isAsync => cases isAsync <;> exact .other (by decide)
  | tryStmt isGroup => cases isGroup <;> exact .other (by decide)
  | _ => exact .other (by simp [className, renamedClasses])

theorem Label.relabelled_iff {l l' : Label} : l.Relabelled m l' ↔ l' = l.rename m := by
  refine ⟨fun h => ?_, fun h => h ▸ l.relabelled_rename m⟩
  cases h with
  | name access h => rw [NameMap.sends_iff.mp h, rename]
  | attr access h => rw [NameMap.sends_iff.mp h, rename]
  | functionDef isAsync h => rw [NameMap.sends_iff.mp h, rename]
  | classDef h => rw [NameMap.sends_iff.mp h, rename]
  | other h => rw [rename_of_not_mem h]

theorem Tree.relabelled_node {l : Label} {r : Role} {s : Span} {cs : List Tree} {t : Tree} :
    Tree.Relabelled m (.node l r s cs) t ↔
      ∃ cs', List.Forall₂ (Tree.Relabelled m) cs cs' ∧ t = .node (l.rename m) r s cs' := by
  refine ⟨fun h => ?_, ?_⟩
  · obtain ⟨r, s, hlabel, hchildren⟩ := h
    exact ⟨_, hchildren, by rw [Label.relabelled_iff.mp hlabel]⟩
  · rintro ⟨cs', hchildren, rfl⟩
    exact .node r s (l.relabelled_rename m) hchildren

mutual

theorem Tree.relabelled_iff (m : NameMap) : ∀ t t' : Tree,
    t.Relabelled m t' ↔ t' = t.rename m
  | .node l r s cs, t' => by
    rw [Tree.relabelled_node, Tree.rename]
    simp only [Tree.forall₂_relabelled_iff m cs, exists_eq_left]

theorem Tree.forall₂_relabelled_iff (m : NameMap) : ∀ ts ts' : List Tree,
    List.Forall₂ (Tree.Relabelled m) ts ts' ↔ ts' = Tree.renameList m ts
  | [], ts' => List.forall₂_nil_left_iff
  | t :: ts, ts' => by
    rw [List.forall₂_cons_left_iff, Tree.renameList]
    simp only [Tree.relabelled_iff m t, Tree.forall₂_relabelled_iff m ts, exists_eq_left,
      exists_and_left]

end

/-! ### Renaming twice -/

theorem Label.rename_rename (m₁ m₂ : NameMap) (l : Label) :
    (l.rename m₁).rename m₂ = l.rename (m₁.andThen m₂) := by
  cases l with
  | name => simp only [rename, NameMap.apply_andThen]
  | attr => simp only [rename, NameMap.apply_andThen]
  | functionDef => simp only [rename, NameMap.apply_andThen]
  | classDef => simp only [rename, NameMap.apply_andThen]
  | _ => rfl

mutual

theorem Tree.rename_rename (m₁ m₂ : NameMap) : ∀ t : Tree,
    (t.rename m₁).rename m₂ = t.rename (m₁.andThen m₂)
  | .node l r s cs => by
    rw [Tree.rename, Tree.rename, Tree.rename, Label.rename_rename,
      Tree.renameList_renameList m₁ m₂ cs]

theorem Tree.renameList_renameList (m₁ m₂ : NameMap) : ∀ ts : List Tree,
    Tree.renameList m₂ (Tree.renameList m₁ ts) = Tree.renameList (m₁.andThen m₂) ts
  | [] => rfl
  | t :: ts => by
    rw [Tree.renameList, Tree.renameList, Tree.renameList, Tree.rename_rename m₁ m₂ t,
      Tree.renameList_renameList m₁ m₂ ts]

end

/-! ### Names in all nodes -/

mutual

theorem Tree.preorder_rename (m : NameMap) : ∀ t : Tree,
    (t.rename m).preorder = t.preorder.map (·.rename m)
  | .node l r s cs => by
    rw [Tree.rename, Tree.preorder_node, Tree.preorder_node, List.map_cons, Tree.rename,
      Tree.preorders_rename m cs]

theorem Tree.preorders_rename (m : NameMap) : ∀ ts : List Tree,
    Tree.preorders (Tree.renameList m ts) = (Tree.preorders ts).map (·.rename m)
  | [] => rfl
  | t :: ts => by
    rw [Tree.renameList, Tree.preorders_cons, Tree.preorders_cons, List.map_append,
      Tree.preorder_rename m t, Tree.preorders_rename m ts]

end

theorem Tree.label_rename (m : NameMap) (t : Tree) : (t.rename m).label = t.label.rename m := by
  cases t
  rfl

end Syntax

namespace Session

variable {session : Session} {source : Source} {m m₁ m₂ : NameMap}

theorem renameTree_of_loaded (hloaded : session.loaded = some source)
    (hm : m.isEmpty = false) :
    session.renameTree m =
      (⟨session.reader.map fun r => { r with tree := r.tree.rename m },
          some { source with tree := source.tree.rename m }⟩,
        .ok (some (source.tree.rename m))) := by
  unfold renameTree
  rw [hloaded]
  simp [hm]

theorem renameTree_renameTree (hloaded : session.loaded = some source)
    (h₁ : m₁.isEmpty = false) (h₂ : m₂.isEmpty = false) :
    (session.renameTree m₁).1.renameTree m₂ = session.renameTree (m₁.andThen m₂) := by
  rw [renameTree_of_loaded hloaded h₁, renameTree_of_loaded rfl h₂,
    renameTree_of_loaded hloaded (NameMap.isEmpty_andThen h₁ m₂), Option.map_map]
  simp only [Function.comp_def, Tree.rename_rename]

/-- Renaming the loaded tree with a map that is not empty gives its one relabelling, which is the
loaded tree from then on. To rename it again with a second map is to rename once, with the map that
sends the names of both through the first map and then through the second. -/
theorem renameTree_relabels (hloaded : session.loaded = some source) (hm : m.isEmpty = false) :
    ∃ t, (session.renameTree m).2 = .ok (some t) ∧
      (session.renameTree m).1.loaded = some { source with tree := t } ∧
      (∀ t', source.tree.Relabelled m t' ↔ t' = t) ∧
      ∀ m₂ : NameMap, m₂.isEmpty = false →
        (session.renameTree m).1.renameTree m₂ = session.renameTree (m.andThen m₂) := by
  refine ⟨source.tree.rename m, ?_, ?_, Tree.relabelled_iff m source.tree, ?_⟩
  · rw [renameTree_of_loaded hloaded hm]
  · rw [renameTree_of_loaded hloaded hm]
  · intro m₂ hm₂
    exact renameTree_renameTree hloaded hm hm₂

def swappedNames : NameMap := ⟨[("a", "b"), ("b", "a")]⟩

/-- A function with a parameter of the same name, which returns an attribute of it. -/
def selfNamed : Tree :=
  .node .file .root ⟨1, 0, 2⟩ [.node (.functionDef false "a") .body ⟨1, 0, 2⟩ [
    .node .arguments .parameters ⟨1, 6, 1⟩ [.node (.arg "a") .positional ⟨1, 6, 1⟩ []],
    .node .returnStmt .body ⟨2, 4, 2⟩ [.node (.attr "b" .load) .value ⟨2, 11, 2⟩ [
      .node (.name "a" .load) .value ⟨2, 11, 2⟩ []]]]]

theorem renameTree_relabels_sample :
    swappedNames.isEmpty = false ∧
      ∃ t, ((keep ⟨[], [], selfNamed⟩).renameTree swappedNames).2 = .ok (some t) ∧
        selfNamed.Relabelled swappedNames t ∧
        t.nameUses = [⟨"FunctionDef", .name, "b"⟩, ⟨"arg", .arg, "a"⟩, ⟨"Attribute", .attr, "a"⟩,
          ⟨"Name", .id, "b"⟩] := by
  have hm : swappedNames.isEmpty = false := rfl
  have hloaded : (keep ⟨[], [], selfNamed⟩).loaded = some ⟨[], [], selfNamed⟩ := rfl
  obtain ⟨t, hanswer, -, ht, -⟩ := renameTree_relabels hloaded hm
  refine ⟨hm, t, hanswer, (ht t).mpr rfl, ?_⟩
  rw [← (ht _).mp ((Tree.relabelled_iff _ _ _).mpr rfl)]
  decide

end Session

end Restyle

import Restyle.Proofs.Source.Session
import Restyle.Proofs.Syntax.AlikeStatements
import Restyle.Proofs.Syntax.Traversal

/-!
The names of elements. The tokens of a source are alike to themselves even if names have to be
spelled as names are, and so is its tree. The elements of a source take their names from the tree,
so these are names too. Their kinds are those that rules know.
-/

namespace Restyle

open Syntax
open Naming (Spelled)

/-- All names in the tree of a source are spelled as names are. -/
theorem Syntax.treeLike_self [Dialect] {text : List Char} {tree : Tree}
    (h : parse? text = some tree) : TreeLike .same .none tree tree := by
  have htree := rel_parse?_reworded (.same .plain text)
  rw [h] at htree
  cases htree with
  | some htree => exact htree

variable {F : Places}

theorem Syntax.TreeLike.children {t : Tree} (ht : TreeLike .same F t t) :
    ∀ c ∈ t.children, TreeLike .same F c c := by
  cases ht with
  | node _ _ hcs => exact List.forall₂_same.mp hcs

theorem Syntax.TreeLike.of_mem_preorder {n t : Tree} (ht : TreeLike .same F t t)
    (hn : n ∈ t.preorder) : TreeLike .same F n n := Tree.forall_mem_preorder TreeLike.children ht hn

namespace Element

variable {s : Scope} {e : Element}

theorem spelled_ofTarget {assignment : String} {value : Option Tree} {t : Tree}
    (ht : TreeLike .same F t t) (he : ofTarget s assignment value t = some e) :
    Spelled e.name := by
  unfold ofTarget at he
  split at he
  case h_1 id access hlabel =>
      have hl := ht.label
      rw [hlabel] at hl
      cases he
      cases hl with
      | same h => cases h
      | name h => exact h.2
  case h_2 => cases he

theorem spelled_ofNode {t : Tree} (ht : TreeLike .same F t t) (he : e ∈ ofNode s t) :
    Spelled e.name := by
  have htargets {assignment : String}
      (he : e ∈ (t.parts .target).filterMap (ofTarget s assignment (t.part? .value))) :
      Spelled e.name := by
    obtain ⟨target, htarget, he⟩ := List.mem_filterMap.mp he
    exact spelled_ofTarget (ht.children target (List.mem_filter.mp htarget).1) he
  have hl := ht.label
  unfold ofNode at he
  split at he
  case h_1 name hlabel =>
      rw [hlabel] at hl
      rw [List.mem_singleton.mp he]
      cases hl with
      | same h => cases h
      | classDef h => exact h.2
  case h_2 isAsync name hlabel =>
      rw [hlabel] at hl
      have hname : e.name = name := by
        rw [List.mem_singleton.mp he, ofFunction]
        split <;> rfl
      rw [hname]
      cases hl with
      | same h => cases h
      | functionDef _ h => exact h.2
  case h_3 => exact htargets he
  case h_4 => exact htargets he
  case h_5 => cases he

mutual

theorem exists_ofNode_of_mem_inScope : ∀ (s : Scope) (t : Tree), e ∈ inScope s t →
    ∃ s', ∃ n ∈ t.preorder, e ∈ ofNode s' n
  | s, .node l r span cs, he => by
    rw [inScope, List.mem_append] at he
    rw [Tree.preorder_node]
    rcases he with hown | hbelow
    · exact ⟨s, _, .head _, hown⟩
    · obtain ⟨s', n, hn, he⟩ := exists_ofNode_of_mem_inScopes (s.enter l) cs hbelow
      exact ⟨s', n, .tail _ hn, he⟩

theorem exists_ofNode_of_mem_inScopes : ∀ (s : Scope) (ts : List Tree), e ∈ inScopes s ts →
    ∃ s', ∃ n ∈ Tree.preorders ts, e ∈ ofNode s' n
  | _, [], he => by cases he
  | s, t :: ts, he => by
    rw [inScopes, List.mem_append] at he
    rw [Tree.preorders_cons]
    rcases he with hfirst | hrest
    · obtain ⟨s', n, hn, he⟩ := exists_ofNode_of_mem_inScope s t hfirst
      exact ⟨s', n, List.mem_append_left _ hn, he⟩
    · obtain ⟨s', n, hn, he⟩ := exists_ofNode_of_mem_inScopes s ts hrest
      exact ⟨s', n, List.mem_append_right _ hn, he⟩

end

theorem known_methodKind (name : String) : methodKind name ∈ ElementKind.known := by
  unfold methodKind
  split
  · decide
  · split <;> decide

theorem known_ofNode {t : Tree} (he : e ∈ ofNode s t) : e.kind ∈ ElementKind.known := by
  have htargets {assignment : String} {value : Option Tree} {targets : List Tree}
      (he : e ∈ targets.filterMap (ofTarget s assignment value)) : e.kind ∈ ElementKind.known := by
    obtain ⟨target, -, he⟩ := List.mem_filterMap.mp he
    unfold ofTarget at he
    split at he
    case h_1 =>
      cases he
      dsimp only
      split <;> decide
    case h_2 => cases he
  unfold ofNode at he
  split at he
  case h_1 =>
    rw [List.mem_singleton.mp he]
    simp [ofClass, ElementKind.known]
  case h_2 =>
    rw [List.mem_singleton.mp he, ofFunction]
    split
    · exact known_methodKind _
    · simp [ElementKind.known]
  case h_3 => exact htargets he
  case h_4 => exact htargets he
  case h_5 => cases he

end Element

theorem known_of_mem_elements {t : Tree} {e : Element} (he : e ∈ elements t) :
    e.kind ∈ ElementKind.known := by
  obtain ⟨s, n, -, hn⟩ := Element.exists_ofNode_of_mem_inScope _ _ he
  exact Element.known_ofNode hn

theorem Source.parse?_text [Dialect] {d : Disk} {p : Disk.Path} {source : Source}
    (h : Source.ofFile d p = .ok source) : parse? source.text = some source.tree := by
  obtain ⟨text, tree, -, htree, rfl⟩ := Source.exists_of_ofFile h
  exact htree

theorem spelled_of_mem_elements [Dialect] {d : Disk} {p : Disk.Path} {source : Source}
    (h : Source.ofFile d p = .ok source) : ∀ e ∈ elements source.tree, Spelled e.name := by
  intro e he
  obtain ⟨s, n, hn, he⟩ := Element.exists_ofNode_of_mem_inScope _ _ he
  exact Element.spelled_ofNode ((treeLike_self (Source.parse?_text h)).of_mem_preorder hn) he

end Restyle

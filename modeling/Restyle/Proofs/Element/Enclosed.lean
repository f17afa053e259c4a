import Restyle.Proofs.Element.Complete
import Restyle.Proofs.Element.Names
import Restyle.Proofs.Rename.TreeAndText

/-!
What an element is, by the definitions around it. On the way down through a tree the innermost class
and the innermost function are handed on; the main statement is that these are the nearest ones
among the nodes above a node, so that the kind and the context of an element follow from them, from
its name and from its value.
-/

namespace Restyle

open Syntax

/-! ### Nodes with the nodes above them -/

namespace Syntax

namespace Label

def className? : Label → Option String
  | classDef id => some id
  | _ => none

def functionName? : Label → Option String
  | functionDef _ id => some id
  | _ => none

def isScalar : Label → Bool
  | constant .null => true
  | constant (.bool _) => true
  | constant (.number .integer _) => true
  | constant (.number .real _) => true
  | constant (.string _) => true
  | _ => false

/-- A name whose normal form is the word for a truth value or for nothing. -/
def spellsConstant : Label → Bool
  | name id _ => id == "True" || id == "False" || id == "None"
  | _ => false

def assignmentWord : Label → String
  | annAssign => "annotated_assignment"
  | _ => "assignment"

theorem isSome_className? (l : Label) : l.className?.isSome = l.isClass := by
  cases l <;> rfl

theorem isSome_functionName? (l : Label) : l.functionName?.isSome = l.isFunction := by
  cases l <;> rfl

end Label

/-- A node and the nodes above it, the nearest first. -/
structure Lineage where
  above : List Tree
  node : Tree

namespace Lineage

/-- The name of the innermost class around a node. -/
def enclosingClass? (l : Lineage) : Option String := l.above.findSome? (·.label.className?)

def enclosingFunction? (l : Lineage) : Option String := l.above.findSome? (·.label.functionName?)

end Lineage

namespace Tree

mutual

/-- The nodes of a tree, where the nodes `above` are above the tree. -/
def lineagesFrom (above : List Tree) : Tree → List Lineage
  | node l r s cs => ⟨above, node l r s cs⟩ :: lineagesOf (node l r s cs :: above) cs

def lineagesOf (above : List Tree) : List Tree → List Lineage
  | [] => []
  | t :: ts => t.lineagesFrom above ++ lineagesOf above ts

end

def lineages (t : Tree) : List Lineage := t.lineagesFrom []

/-- No class and no function has the empty name. -/
def DefinitionsNamed (t : Tree) : Prop :=
  ∀ n ∈ t.preorder, n.label.className? ≠ some "" ∧ n.label.functionName? ≠ some ""

mutual

theorem above_of_mem_lineagesFrom {l : Lineage} : ∀ (above : List Tree) (t : Tree),
    l ∈ t.lineagesFrom above → ∀ a ∈ l.above, a ∈ above ∨ a ∈ t.preorder
  | above, node lab r s cs, hl, a, ha => by
    rw [lineagesFrom, List.mem_cons] at hl
    rw [preorder_node, List.mem_cons]
    rcases hl with rfl | hbelow
    · exact .inl ha
    · rcases above_of_mem_lineagesOf (node lab r s cs :: above) cs hbelow a ha with habove | hin
      · rcases List.mem_cons.mp habove with rfl | habove
        · exact .inr (.inl rfl)
        · exact .inl habove
      · exact .inr (.inr hin)

theorem above_of_mem_lineagesOf {l : Lineage} : ∀ (above ts : List Tree),
    l ∈ lineagesOf above ts → ∀ a ∈ l.above, a ∈ above ∨ a ∈ preorders ts
  | _, [], hl, _, _ => by cases hl
  | above, t :: ts, hl, a, ha => by
    rw [lineagesOf, List.mem_append] at hl
    rw [preorders_cons, List.mem_append]
    rcases hl with hfirst | hrest
    · exact (above_of_mem_lineagesFrom above t hfirst a ha).imp_right .inl
    · exact (above_of_mem_lineagesOf above ts hrest a ha).imp_right .inr

end

theorem above_of_mem_lineages {t a : Tree} {l : Lineage} (hl : l ∈ t.lineages) (ha : a ∈ l.above) :
    a ∈ t.preorder := by
  rcases above_of_mem_lineagesFrom [] t hl a ha with hnone | hin
  · cases hnone
  · exact hin

mutual

theorem map_node_lineagesFrom : ∀ (above : List Tree) (t : Tree),
    (t.lineagesFrom above).map (·.node) = t.preorder
  | above, node l r s cs => by
    rw [lineagesFrom, List.map_cons, map_node_lineagesOf, preorder]

theorem map_node_lineagesOf : ∀ (above ts : List Tree),
    (lineagesOf above ts).map (·.node) = preorders ts
  | _, [] => rfl
  | above, t :: ts => by
    rw [lineagesOf, List.map_append, map_node_lineagesFrom, map_node_lineagesOf, preorders]

end

end Tree

end Syntax

/-! ### The scope of a node -/

namespace Scope

/-- The scope that the nodes above a node make. -/
def ofAbove (above : List Tree) : Scope :=
  ⟨(above.findSome? (·.label.className?)).getD "",
    (above.findSome? (·.label.functionName?)).getD ""⟩

/-- What is handed on to the children of a node is the scope that they are in. -/
theorem enter_ofAbove (above : List Tree) (l : Label) (r : Role) (s : Span) (cs : List Tree) :
    (ofAbove above).enter l = ofAbove (.node l r s cs :: above) := by
  cases l <;> rfl

end Scope

namespace Syntax.Lineage

/-- The elements of a node in the scope that the nodes above it make. -/
def elements (l : Lineage) : List Element := Element.ofNode (.ofAbove l.above) l.node

/-- Whether there is a class around a node, at any distance. -/
def InClass (l : Lineage) : Prop := ∃ a ∈ l.above, a.label.isClass = true

/-- Whether there is a function around a node, at any distance. -/
def InFunction (l : Lineage) : Prop := ∃ a ∈ l.above, a.label.isFunction = true

/-- The definitions above a node have names. -/
def Named (l : Lineage) : Prop :=
  ∀ a ∈ l.above, a.label.className? ≠ some "" ∧ a.label.functionName? ≠ some ""

variable {l : Lineage}

theorem isSome_enclosingClass?_iff : l.enclosingClass?.isSome = true ↔ l.InClass := by
  simp [enclosingClass?, InClass, List.findSome?_isSome_iff, Label.isSome_className?]

theorem isSome_enclosingFunction?_iff : l.enclosingFunction?.isSome = true ↔ l.InFunction := by
  simp [enclosingFunction?, InFunction, List.findSome?_isSome_iff, Label.isSome_functionName?]

/-- If no name is empty then the empty name stands for nothing found. -/
theorem not_isEmpty_getD {name : Option String} (h : name ≠ some "") :
    (!(name.getD "").isEmpty) = name.isSome := by
  cases name with
  | none => rfl
  | some id =>
    have hid : id ≠ "" := fun heq => h (congrArg some heq)
    simpa using hid

theorem Named.inClass_eq (h : l.Named) :
    (Scope.ofAbove l.above).inClass = l.enclosingClass?.isSome := by
  refine not_isEmpty_getD fun hempty => ?_
  obtain ⟨a, ha, hname⟩ := List.exists_of_findSome?_eq_some hempty
  exact (h a ha).1 hname

theorem Named.inFunction_eq (h : l.Named) :
    (Scope.ofAbove l.above).inFunction = l.enclosingFunction?.isSome := by
  refine not_isEmpty_getD fun hempty => ?_
  obtain ⟨a, ha, hname⟩ := List.exists_of_findSome?_eq_some hempty
  exact (h a ha).2 hname

theorem Named.isOutermost_iff (h : l.Named) :
    (Scope.ofAbove l.above).isOutermost = true ↔ ¬ l.InClass ∧ ¬ l.InFunction := by
  rw [Scope.isOutermost, h.inClass_eq, h.inFunction_eq, ← isSome_enclosingClass?_iff,
    ← isSome_enclosingFunction?_iff]
  simp

end Syntax.Lineage

namespace Element

mutual

theorem inScope_eq_flatMap : ∀ (above : List Tree) (t : Tree),
    inScope (.ofAbove above) t = (t.lineagesFrom above).flatMap Lineage.elements
  | above, .node l r s cs => by
    rw [inScope, Scope.enter_ofAbove above l r s cs, inScopes_eq_flatMap, Tree.lineagesFrom,
      List.flatMap_cons]
    rfl

theorem inScopes_eq_flatMap : ∀ (above ts : List Tree),
    inScopes (.ofAbove above) ts = (Tree.lineagesOf above ts).flatMap Lineage.elements
  | _, [] => rfl
  | above, t :: ts => by
    rw [inScopes, inScope_eq_flatMap, inScopes_eq_flatMap, Tree.lineagesOf, List.flatMap_append]

end

/-! ### Functions -/

inductive MethodNamed (name : String) : ElementKind → Prop
  | dunder (hfront : "__".toList <+: name.toList) (hback : "__".toList <:+ name.toList) :
      MethodNamed name .dunderMethod
  | hidden (hfront : "_".toList <+: name.toList)
      (hdunder : ¬ ("__".toList <+: name.toList ∧ "__".toList <:+ name.toList)) :
      MethodNamed name .privateMethod
  | open (hfront : ¬ "_".toList <+: name.toList) : MethodNamed name .method

theorem methodNamed_methodKind (name : String) : MethodNamed name (methodKind name) := by
  have hdunder : (name.startsWith "__" && name.endsWith "__") = true ↔
      "__".toList <+: name.toList ∧ "__".toList <:+ name.toList := by
    rw [Bool.and_eq_true, String.startsWith_string_iff, String.endsWith_eq_endsWith_toSlice,
      String.Slice.endsWith_string_iff, String.copy_toSlice]
  unfold methodKind
  split
  case isTrue h => exact .dunder (hdunder.mp h).1 (hdunder.mp h).2
  case isFalse h =>
    split
    case isTrue hfront => exact .hidden (String.startsWith_string_iff.mp hfront) (mt hdunder.mpr h)
    case isFalse hfront => exact .open (mt String.startsWith_string_iff.mpr hfront)

/-- What a function is by the classes around it. -/
structure FunctionFits (l : Lineage) (name : String) (e : Element) : Prop where
  standsFor : e.StandsFor l.node
  function_iff : e.kind = .function ↔ ¬ l.InClass
  outside : ¬ l.InClass → e.context = "function_definition"
  method : ∀ c, l.enclosingClass? = some c →
    MethodNamed name e.kind ∧ e.context = "method_in_class_" ++ c

variable {l : Lineage}

theorem functionFits_ofFunction (hnamed : l.Named) {isAsync : Bool} {name : String}
    (hlabel : l.node.label = .functionDef isAsync name) :
    FunctionFits l name (ofFunction (.ofAbove l.above) name l.node.span) := by
  have hkind : methodKind name ≠ .function := by
    intro h
    have hmethod := methodNamed_methodKind name
    rw [h] at hmethod
    cases hmethod
  have hin := hnamed.inClass_eq
  unfold ofFunction
  cases hc : l.enclosingClass? with
  | some c =>
    have hclass : l.InClass := Lineage.isSome_enclosingClass?_iff.mp (by rw [hc]; rfl)
    have hname : (Scope.ofAbove l.above).className = c := congrArg (·.getD "") hc
    rw [if_pos (hin.trans (by rw [hc]; rfl)), hname]
    refine ⟨⟨by rw [hlabel]; rfl, rfl, rfl⟩, ?_, fun h => absurd hclass h, ?_⟩
    · exact ⟨fun h => absurd h hkind, fun h => absurd hclass h⟩
    · rintro c' hc'
      obtain rfl : c = c' := Option.some.inj (hc.symm.trans hc')
      exact ⟨methodNamed_methodKind name, rfl⟩
  | none =>
    have hclass : ¬ l.InClass := by
      rw [← Lineage.isSome_enclosingClass?_iff, hc]
      exact Bool.false_ne_true
    rw [if_neg (by rw [hin, hc]; exact Bool.false_ne_true)]
    refine ⟨⟨by rw [hlabel]; rfl, rfl, rfl⟩, ⟨fun _ => hclass, fun _ => rfl⟩, fun _ => rfl, ?_⟩
    intro c' hc'
    cases hc.symm.trans hc'

/-! ### Assigned names -/

/-- A value that makes a constant of a name outside of all definitions. -/
def IsPlainValue (v : Tree) : Prop := v.label.isScalar = true ∨ v.label.spellsConstant = true

/-- What an assigned name is by the definitions around it and by its value. -/
structure TargetFits (l : Lineage) (target : Tree) (e : Element) : Prop where
  standsFor : e.StandsFor target
  kind : e.kind ∈ variableKinds
  constant_iff : e.kind = .constant ↔ Text.isUpper e.name.toList = true ∨
    ¬ l.InClass ∧ ¬ l.InFunction ∧ ∃ v, l.node.part? .value = some v ∧ IsPlainValue v
  inFunction : ∀ f, l.enclosingFunction? = some f →
    e.context = l.node.label.assignmentWord ++ "_in_function_" ++ f
  inClass : l.enclosingFunction? = none → ∀ c, l.enclosingClass? = some c →
    e.context = l.node.label.assignmentWord ++ "_in_class_" ++ c
  outside : l.enclosingFunction? = none → l.enclosingClass? = none →
    e.context = l.node.label.assignmentWord

theorem isLiteral_iff (v : Tree) : isLiteral v = true ↔ IsPlainValue v := by
  have heq : isLiteral v = (v.label.isScalar || v.label.spellsConstant) := by
    obtain ⟨lab, r, s, cs⟩ := v
    cases lab with
    | constant c =>
      cases c with
      | number kind => cases kind <;> rfl
      | _ => rfl
    | _ => rfl
  rw [heq, Bool.or_eq_true]
  rfl

section Target

variable {s : Scope} {word : String} {value : Option Tree} {target : Tree} {e : Element}

theorem kind_of_ofTarget (h : ofTarget s word value target = some e) :
    e.kind = .constant ↔ Text.isUpper e.name.toList = true ∨
      s.isOutermost = true ∧ ∃ v, value = some v ∧ isLiteral v = true := by
  have hvalue : (value.map isLiteral).getD false = true ↔
      ∃ v, value = some v ∧ isLiteral v = true := by
    cases value <;> simp
  rw [← hvalue, ← Bool.and_eq_true, ← Bool.or_eq_true]
  unfold ofTarget at h
  split at h
  case h_1 =>
    cases h
    dsimp only
    split <;> simp_all
  case h_2 => cases h

theorem context_of_ofTarget (h : ofTarget s word value target = some e) :
    e.context = if s.inFunction then word ++ "_in_function_" ++ s.functionName
      else if s.inClass then word ++ "_in_class_" ++ s.className else word := by
  unfold ofTarget at h
  split at h
  case h_1 =>
    cases h
    rfl
  case h_2 => cases h

end Target

theorem targetFits_of_ofTarget (hnamed : l.Named) {target : Tree} {e : Element}
    (h : ofTarget (.ofAbove l.above) l.node.label.assignmentWord (l.node.part? .value) target =
      some e) : TargetFits l target e := by
  obtain ⟨hstands, hkind⟩ := of_ofTarget h
  have hcontext := context_of_ofTarget h
  have hclass (c : String) (hc : l.enclosingClass? = some c) :
      (Scope.ofAbove l.above).className = c := congrArg (·.getD "") hc
  have hfunction (f : String) (hf : l.enclosingFunction? = some f) :
      (Scope.ofAbove l.above).functionName = f := congrArg (·.getD "") hf
  rw [hnamed.inFunction_eq, hnamed.inClass_eq] at hcontext
  refine ⟨hstands, hkind, ?_, fun f hf => ?_, fun hf c hc => ?_, fun hf hc => ?_⟩
  · rw [kind_of_ofTarget h, hnamed.isOutermost_iff, and_assoc]
    simp only [isLiteral_iff]
  · rw [hcontext, hfunction f hf, hf]
    rfl
  · rw [hcontext, hclass c hc, hf, hc]
    rfl
  · rw [hcontext, hf, hc]
    rfl

theorem ofNode_of_isAssignment (s : Scope) {t : Tree} (h : t.label.isAssignment = true) :
    ofNode s t =
      (t.parts .target).filterMap (ofTarget s t.label.assignmentWord (t.part? .value)) := by
  obtain ⟨lab, r, span, cs⟩ := t
  cases lab with
  | assign => rfl
  | annAssign => rfl
  | _ => cases h

theorem forall₂_targetFits (hnamed : l.Named) (hassign : l.node.label.isAssignment = true) :
    List.Forall₂ (TargetFits l) l.node.nameTargets l.elements := by
  -- elements and targets are the two sides of one list of pairs
  rw [Lineage.elements, ofNode_of_isAssignment _ hassign, ← map_fst_ofTargetsWith,
    ← map_snd_ofTargetsWith (.ofAbove l.above) l.node.label.assignmentWord,
    List.forall₂_map_left_iff, List.forall₂_map_right_iff, List.forall₂_same]
  intro x hx
  obtain ⟨target, -, htarget⟩ := List.mem_filterMap.mp hx
  obtain ⟨e, he, rfl⟩ := Option.map_eq_some_iff.mp htarget
  exact targetFits_of_ofTarget hnamed he

end Element

/-! ### All elements -/

namespace Syntax

/-- The elements of a node are what the definitions above the node make of it. -/
structure Lineage.Classified (l : Lineage) : Prop where
  function : ∀ isAsync name, l.node.label = .functionDef isAsync name →
    ∃ e, l.elements = [e] ∧ Element.FunctionFits l name e
  assigned : l.node.label.isAssignment = true →
    List.Forall₂ (Element.TargetFits l) l.node.nameTargets l.elements
  other : l.node.label.isFunction = false → l.node.label.isAssignment = false →
    ∀ e ∈ l.elements, e.StandsFor l.node ∧ e.kind = .classType

theorem Lineage.Named.classified {l : Lineage} (hnamed : l.Named) : l.Classified where
  function isAsync name hlabel := by
    refine ⟨_, ?_, Element.functionFits_ofFunction hnamed hlabel⟩
    rw [Lineage.elements, Element.ofNode, hlabel]
  assigned := Element.forall₂_targetFits hnamed
  other hfunction hassign e he := by
    cases Element.nodeCase l.node with
    | classDef hlabel =>
      rw [Lineage.elements, Element.ofNode, hlabel] at he
      rw [List.mem_singleton.mp he]
      exact ⟨⟨by rw [hlabel]; rfl, rfl, rfl⟩, rfl⟩
    | functionDef hlabel =>
      rw [hlabel] at hfunction
      cases hfunction
    | assignment h =>
      rw [h] at hassign
      cases hassign
    | other _ _ _ hof =>
      rw [Lineage.elements, hof] at he
      cases he

namespace Tree

theorem DefinitionsNamed.named {t : Tree} (h : t.DefinitionsNamed) {l : Lineage}
    (hl : l ∈ t.lineages) : l.Named := fun a ha => h a (above_of_mem_lineages hl ha)

theorem definitionsNamed_of_treeLike {F : Places} {t : Tree} (h : TreeLike .same F t t) :
    t.DefinitionsNamed := by
  intro n hn
  have hlabel := (h.of_mem_preorder hn).label
  generalize n.label = lab at hlabel ⊢
  -- a label with a name is alike to itself only if the name is spelled as names are
  constructor
  · intro hname
    cases lab with
    | classDef id =>
      cases hlabel with
      | same hnameless => cases hnameless
      | classDef h => exact h.2.ne_empty (Option.some.inj hname)
    | _ => cases hname
  · intro hname
    cases lab with
    | functionDef isAsync id =>
      cases hlabel with
      | same hnameless => cases hnameless
      | functionDef _ h => exact h.2.ne_empty (Option.some.inj hname)
    | _ => cases hname

end Tree

end Syntax

/-- The elements of a tree are those of its nodes, one node after the other. If no definition has
the empty name then each element is what the innermost class and the innermost function above its
node, its name and its value make of it, and in the tree of a source no definition has the empty
name. -/
theorem elements_classified [Dialect] (t : Tree) :
    elements t = t.lineages.flatMap Lineage.elements ∧ t.lineages.map (·.node) = t.preorder ∧
      (t.DefinitionsNamed → ∀ l ∈ t.lineages, l.Classified) ∧
      ∀ text, parse? text = some t → t.DefinitionsNamed :=
  ⟨Element.inScope_eq_flatMap [] t, Tree.map_node_lineagesFrom [] t,
    fun h _ hl => (h.named hl).classified,
    fun _ h => Tree.definitionsNamed_of_treeLike (treeLike_self h)⟩

def nestedSource : List Char :=
  "class Outer:\n    size = count()\n    def _hide(self):\n        level = 3\nwidth = 3\n".toList

theorem elements_classified_nested : ∃ t, parse? nestedSource = some t ∧ t.DefinitionsNamed ∧
    ∀ l ∈ t.lineages, l.Classified := by
  have hsome : (parse? nestedSource).isSome = true := by decide +kernel
  obtain ⟨t, ht⟩ := Option.isSome_iff_exists.mp hsome
  obtain ⟨-, -, hclassified, hnamed⟩ := elements_classified t
  exact ⟨t, ht, hnamed _ ht, hclassified (hnamed _ ht)⟩

/-- A source with a renaming whose new names are no names: one is empty, and one is the word for
nothing. -/
def renamedToNothing : Option Tree :=
  (parse? "class Shape:\n    def area(self): pass\nwidth = other\n".toList).map
    (Tree.rename ⟨[("Shape", ""), ("other", "None")]⟩)

/-- After such a renaming a function in a class counts as one outside of classes, and a small name
that gets no literal counts as a constant. -/
theorem unfit_after_renaming : ∃ t ∈ renamedToNothing,
    (∃ l ∈ t.lineages, (∃ a ∈ l.above, a.label.isClass = true) ∧
      ∃ e ∈ l.elements, e.kind = .function) ∧
    (∃ e ∈ elements t, e.kind = .constant ∧ Text.isUpper e.name.toList = false) ∧
    ∀ n ∈ t.preorder, n.label.isScalar = false := by
  decide +kernel

end Restyle

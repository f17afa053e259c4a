import Restyle.Element.Extract
import Restyle.Proofs.Lists
import Restyle.Proofs.Syntax.Traversal
import Restyle.Syntax.Query

/-!
Which nodes the elements of a tree stand for. Elements are found from the top down, and questions
about a tree are answered level by level; both meet every node once. The main statement is that the
elements stand for all classes, all functions and all names that are assigned directly, each node as
often as it is met level by level.
-/

namespace Restyle

open Syntax

namespace Syntax

def Label.isName : Label → Bool
  | name .. => true
  | _ => false

def Tree.nameTargets (t : Tree) : List Tree := (t.parts .target).filter (·.label.isName)

end Syntax

/-! ### Elements with their nodes -/

namespace Element

/-- The assigned names of a node, each with the target that it stands for. -/
def ofTargetsWith (s : Scope) (kindOfAssignment : String) (t : Tree) : List (Element × Tree) :=
  (t.parts .target).filterMap fun target =>
    (ofTarget s kindOfAssignment (t.part? .value) target).map (·, target)

/-- The elements of a node itself, each with the node that it stands for. -/
def ofNodeWith (s : Scope) (t : Tree) : List (Element × Tree) :=
  match t.label with
  | .classDef name => [(ofClass name t.span, t)]
  | .functionDef _ name => [(ofFunction s name t.span, t)]
  | .assign => ofTargetsWith s "assignment" t
  | .annAssign => ofTargetsWith s "annotated_assignment" t
  | _ => []

mutual

/-- The elements of a tree in a scope, each with the node that it stands for. -/
def inScopeWith (s : Scope) : Tree → List (Element × Tree)
  | .node l r span cs => ofNodeWith s (.node l r span cs) ++ inScopesWith (s.enter l) cs

def inScopesWith (s : Scope) : List Tree → List (Element × Tree)
  | [] => []
  | t :: ts => inScopeWith s t ++ inScopesWith s ts

end

/-- The element has the name and the position of the node. -/
structure StandsFor (e : Element) (n : Tree) : Prop where
  name : n.label.ownName? = some e.name
  line : e.line = n.span.line
  column : e.column = n.span.column

/-- A node is a class, a function, an assignment or none of these, and its elements are found
accordingly. -/
inductive NodeCase (t : Tree) : Prop
  | classDef {name : String} (hlabel : t.label = .classDef name)
  | functionDef {isAsync : Bool} {name : String} (hlabel : t.label = .functionDef isAsync name)
  | assignment (hassign : t.label.isAssignment = true) {kind : String}
      (hof : ∀ s, ofNode s t =
        (t.parts .target).filterMap (ofTarget s kind (t.part? .value)))
      (hwith : ∀ s, ofNodeWith s t = ofTargetsWith s kind t)
      (hclass : t.label.isClass = false) (hfunction : t.label.isFunction = false)
  | other (hassign : t.label.isAssignment = false) (hclass : t.label.isClass = false)
      (hfunction : t.label.isFunction = false) (hof : ∀ s, ofNode s t = [])
      (hwith : ∀ s, ofNodeWith s t = [])

theorem nodeCase (t : Tree) : NodeCase t := by
  obtain ⟨l, r, span, cs⟩ := t
  cases l with
  | classDef name => exact .classDef rfl
  | functionDef isAsync name => exact .functionDef rfl
  | assign => exact .assignment rfl (fun _ => rfl) (fun _ => rfl) rfl rfl
  | annAssign => exact .assignment rfl (fun _ => rfl) (fun _ => rfl) rfl rfl
  | _ => exact .other rfl rfl rfl (fun _ => rfl) (fun _ => rfl)

/-! ### Assigned names -/

section Targets

variable {s : Scope} {kind : String} {value : Option Tree} {t target : Tree} {e : Element}

def variableKinds : List ElementKind := [.var, .constant]

theorem map_ofTarget (s : Scope) (kind : String) (value : Option Tree) (target : Tree) :
    (ofTarget s kind value target).map (fun _ => target) =
      Option.guard (fun n => n.label.isName) target := by
  obtain ⟨l, r, span, cs⟩ := target
  cases l <;> rfl

theorem of_ofTarget (h : ofTarget s kind value target = some e) :
    e.StandsFor target ∧ e.kind ∈ variableKinds := by
  unfold ofTarget at h
  split at h
  case h_1 id access hlabel =>
      cases h
      refine ⟨⟨by rw [hlabel]; rfl, rfl, rfl⟩, ?_⟩
      dsimp only
      split <;> simp [variableKinds]
  case h_2 => cases h

theorem of_mem_ofTargetsWith {x : Element × Tree} (h : x ∈ ofTargetsWith s kind t) :
    x.1.StandsFor x.2 ∧ x.1.kind ∈ variableKinds := by
  obtain ⟨target, -, hx⟩ := List.mem_filterMap.mp h
  obtain ⟨e, he, rfl⟩ := Option.map_eq_some_iff.mp hx
  exact of_ofTarget he

theorem map_fst_ofTargetsWith (s : Scope) (kind : String) (t : Tree) :
    (ofTargetsWith s kind t).map (·.1) =
      (t.parts .target).filterMap (ofTarget s kind (t.part? .value)) := by
  rw [ofTargetsWith, List.map_filterMap]
  simp [Function.comp_def]

theorem map_snd_ofTargetsWith (s : Scope) (kind : String) (t : Tree) :
    (ofTargetsWith s kind t).map (·.2) = t.nameTargets := by
  rw [ofTargetsWith, List.map_filterMap, Tree.nameTargets, ← List.filterMap_eq_filter]
  congr 1
  funext target
  rw [Option.map_map]
  exact map_ofTarget s kind _ target

end Targets

/-! ### One node -/

section Node

variable {s : Scope} {t : Tree}

def functionKinds : List ElementKind := [.function, .method, .privateMethod, .dunderMethod]

theorem kind_ofFunction (s : Scope) (name : String) (span : Span) :
    (ofFunction s name span).kind ∈ functionKinds := by
  unfold ofFunction methodKind
  split
  · dsimp only
    split
    · simp [functionKinds]
    · split <;> simp [functionKinds]
  · simp [functionKinds]

theorem map_fst_ofNodeWith (s : Scope) (t : Tree) : (ofNodeWith s t).map (·.1) = ofNode s t := by
  cases nodeCase t with
  | classDef hlabel => simp [ofNodeWith, ofNode, hlabel]
  | functionDef hlabel => simp [ofNodeWith, ofNode, hlabel]
  | assignment _ hof hwith => rw [hof, hwith, map_fst_ofTargetsWith]
  | other _ _ _ hof hwith => rw [hof, hwith, List.map_nil]

theorem standsFor_of_mem_ofNodeWith {x : Element × Tree} (h : x ∈ ofNodeWith s t) :
    x.1.StandsFor x.2 := by
  cases nodeCase t with
  | classDef hlabel =>
    simp only [ofNodeWith, hlabel, List.mem_singleton] at h
    subst h
    exact ⟨by rw [hlabel]; rfl, rfl, rfl⟩
  | functionDef hlabel =>
    simp only [ofNodeWith, hlabel, List.mem_singleton] at h
    subst h
    dsimp only [ofFunction]
    split <;> exact ⟨by rw [hlabel]; rfl, rfl, rfl⟩
  | assignment _ _ hwith =>
    rw [hwith] at h
    exact (of_mem_ofTargetsWith h).1
  | other _ _ _ _ hwith =>
    rw [hwith] at h
    cases h

end Node

/-! ### All nodes -/

/-- The nodes of the elements that have one of some kinds. -/
def nodesOfKinds (kinds : List ElementKind) (found : List (Element × Tree)) : List Tree :=
  (found.filter fun x => kinds.contains x.1.kind).map (·.2)

theorem nodesOfKinds_append (kinds : List ElementKind) (found more : List (Element × Tree)) :
    nodesOfKinds kinds (found ++ more) = nodesOfKinds kinds found ++ nodesOfKinds kinds more := by
  simp [nodesOfKinds]

section Whole

variable {kinds : List ElementKind} {own : Tree → List Tree}

mutual

/-- If the nodes of some kinds do not depend on the scope then they are found from the top down. -/
theorem nodesOfKinds_inScopeWith (hown : ∀ s t, nodesOfKinds kinds (ofNodeWith s t) = own t) :
    ∀ (s : Scope) (t : Tree), nodesOfKinds kinds (inScopeWith s t) = t.preorder.flatMap own
  | s, .node l r span cs => by
    rw [inScopeWith, nodesOfKinds_append, hown, nodesOfKinds_inScopesWith hown, Tree.preorder_node,
      List.flatMap_cons]

theorem nodesOfKinds_inScopesWith (hown : ∀ s t, nodesOfKinds kinds (ofNodeWith s t) = own t) :
    ∀ (s : Scope) (ts : List Tree),
      nodesOfKinds kinds (inScopesWith s ts) = (Tree.preorders ts).flatMap own
  | _, [] => rfl
  | s, t :: ts => by
    rw [inScopesWith, nodesOfKinds_append, nodesOfKinds_inScopeWith hown,
      nodesOfKinds_inScopesWith hown, Tree.preorders, List.flatMap_append]

end

mutual

theorem map_fst_inScopeWith : ∀ (s : Scope) (t : Tree),
    (inScopeWith s t).map (·.1) = inScope s t
  | s, .node l r span cs => by
    rw [inScopeWith, List.map_append, map_fst_ofNodeWith, map_fst_inScopesWith, inScope]

theorem map_fst_inScopesWith : ∀ (s : Scope) (ts : List Tree),
    (inScopesWith s ts).map (·.1) = inScopes s ts
  | _, [] => rfl
  | s, t :: ts => by
    rw [inScopesWith, List.map_append, map_fst_inScopeWith, map_fst_inScopesWith, inScopes]

end

mutual

theorem standsFor_of_mem_inScopeWith {x : Element × Tree} : ∀ (s : Scope) (t : Tree),
    x ∈ inScopeWith s t → x.1.StandsFor x.2
  | s, .node l r span cs, h => by
    rw [inScopeWith, List.mem_append] at h
    rcases h with hown | hbelow
    · exact standsFor_of_mem_ofNodeWith hown
    · exact standsFor_of_mem_inScopesWith (s.enter l) cs hbelow

theorem standsFor_of_mem_inScopesWith {x : Element × Tree} : ∀ (s : Scope) (ts : List Tree),
    x ∈ inScopesWith s ts → x.1.StandsFor x.2
  | _, [], h => by cases h
  | s, t :: ts, h => by
    rw [inScopesWith, List.mem_append] at h
    rcases h with hfirst | hrest
    · exact standsFor_of_mem_inScopeWith s t hfirst
    · exact standsFor_of_mem_inScopesWith s ts hrest

end

end Whole

/-! ### The three groups -/

/-- What an element can be, as far as a question about the tree can tell. -/
inductive Group where
  | classes
  | functions
  | assigned

namespace Group

def kinds : Group → List ElementKind
  | classes => [.classType]
  | functions => functionKinds
  | assigned => variableKinds

def asks : Group → Label → Bool
  | classes => Label.isClass
  | functions => Label.isFunction
  | assigned => Label.isAssignment

/-- The nodes that the elements of such a node stand for. -/
def named : Group → Tree → List Tree
  | classes => ([·])
  | functions => ([·])
  | assigned => Tree.nameTargets

theorem kinds_disjoint {g g' : Group} (h : g ≠ g') : ∀ kind ∈ g.kinds, kind ∉ g'.kinds := by
  cases g <;> cases g' <;> first | exact absurd rfl h | decide

end Group

section Groups

variable {kinds others : List ElementKind} {found : List (Element × Tree)} {t : Tree}

theorem nodesOfKinds_of_mem (h : ∀ x ∈ found, x.1.kind ∈ kinds) :
    nodesOfKinds kinds found = found.map (·.2) := by
  have hfilter : (found.filter fun x => kinds.contains x.1.kind) = found := by simpa using h
  rw [nodesOfKinds, hfilter]

theorem nodesOfKinds_of_disjoint (h : ∀ x ∈ found, x.1.kind ∈ others)
    (hdisjoint : ∀ kind ∈ others, kind ∉ kinds) : nodesOfKinds kinds found = [] := by
  have hfilter : (found.filter fun x => kinds.contains x.1.kind) = [] := by
    simpa using fun e t hx => hdisjoint e.kind (h (e, t) hx)
  rw [nodesOfKinds, hfilter, List.map_nil]

/-- Elements of one group answer for all groups. -/
theorem nodesOfKinds_of_group {g : Group} (hasks : g.asks t.label = true)
    (hothers : ∀ g' ≠ g, g'.asks t.label = false) (hkinds : ∀ x ∈ found, x.1.kind ∈ g.kinds)
    (hnamed : found.map (·.2) = g.named t) (g' : Group) :
    nodesOfKinds g'.kinds found = if g'.asks t.label then g'.named t else [] := by
  by_cases h : g' = g
  · rw [h, if_pos hasks, nodesOfKinds_of_mem hkinds, hnamed]
  · rw [nodesOfKinds_of_disjoint hkinds (Group.kinds_disjoint (Ne.symm h)),
      if_neg (by simp [hothers g' h])]

/-- The elements of a node are of one group, and stand for the nodes that the group asks for. -/
theorem nodesOfKinds_ofNodeWith (g : Group) (s : Scope) (t : Tree) :
    nodesOfKinds g.kinds (ofNodeWith s t) = if g.asks t.label then g.named t else [] := by
  cases nodeCase t with
  | classDef hlabel =>
    refine nodesOfKinds_of_group (g := .classes) ?_ ?_ ?_ ?_ g
    · rw [hlabel]
      rfl
    · intro g' hg'
      rw [hlabel]
      cases g' <;> first | exact absurd rfl hg' | rfl
    · simp [ofNodeWith, hlabel, ofClass, Group.kinds]
    · simp [ofNodeWith, hlabel, Group.named]
  | functionDef hlabel =>
    refine nodesOfKinds_of_group (g := .functions) ?_ ?_ ?_ ?_ g
    · rw [hlabel]
      rfl
    · intro g' hg'
      rw [hlabel]
      cases g' <;> first | exact absurd rfl hg' | rfl
    · simpa [ofNodeWith, hlabel, Group.kinds] using kind_ofFunction s _ t.span
    · simp [ofNodeWith, hlabel, Group.named]
  | assignment hassign _ hwith hclass hfunction =>
    refine nodesOfKinds_of_group (g := .assigned) hassign ?_ ?_ ?_ g
    · intro g' hg'
      cases g' <;> first | exact absurd rfl hg' | assumption
    · intro x hx
      rw [hwith] at hx
      exact (of_mem_ofTargetsWith hx).2
    · rw [hwith, map_snd_ofTargetsWith]
      rfl
  | other hassign hclass hfunction _ hwith =>
    rw [hwith]
    cases g <;> simp [Group.asks, hassign, hclass, hfunction, nodesOfKinds]

end Groups

end Element

def elementsWith (t : Tree) : List (Element × Tree) := Element.inScopeWith .outermost t

theorem perm_nodesOfKinds (g : Element.Group) (t : Tree) :
    (Element.nodesOfKinds g.kinds (elementsWith t)).Perm
      ((t.breadthFirst.filter fun n => g.asks n.label).flatMap g.named) := by
  rw [elementsWith, Element.nodesOfKinds_inScopeWith (Element.nodesOfKinds_ofNodeWith g),
    flatMap_filter]
  exact ((Tree.perm_breadthFirst t).flatMap_right _).symm

/-- The elements of a tree stand for its classes, its functions and the names that its assignments
have as targets, each element for one node of its name and position, and the nodes of each of the
three groups are those that are met level by level. -/
theorem elements_complete (t : Tree) :
    (elementsWith t).map (·.1) = elements t ∧
      (∀ x ∈ elementsWith t, x.1.StandsFor x.2) ∧
      (Element.nodesOfKinds [.classType] (elementsWith t)).Perm t.classes ∧
      (Element.nodesOfKinds [.function, .method, .privateMethod, .dunderMethod]
        (elementsWith t)).Perm t.functions ∧
      (Element.nodesOfKinds [.var, .constant] (elementsWith t)).Perm
        (t.assignments.flatMap Tree.nameTargets) := by
  refine ⟨Element.map_fst_inScopeWith _ t, fun x => Element.standsFor_of_mem_inScopeWith _ t,
    ?_, ?_, perm_nodesOfKinds .assigned t⟩
  · exact (perm_nodesOfKinds .classes t).trans (.of_eq (List.flatMap_singleton' _))
  · exact (perm_nodesOfKinds .functions t).trans (.of_eq (List.flatMap_singleton' _))

end Restyle

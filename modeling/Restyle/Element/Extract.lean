import Restyle.Element.Kind
import Restyle.Syntax.Tree
import Restyle.Text.Case

/-!
The elements of a syntax tree: its classes, functions and assigned names, in the order of the
source. What an element is depends on its name and on the definitions around it.
-/

namespace Restyle

open Syntax

/-- The definitions around a place: the innermost class and the innermost function. The empty
name stands for none. -/
structure Scope where
  className : String
  functionName : String
deriving DecidableEq, Repr

namespace Scope

def outermost : Scope := ⟨"", ""⟩

def inClass (s : Scope) : Bool := !s.className.isEmpty

def inFunction (s : Scope) : Bool := !s.functionName.isEmpty

def isOutermost (s : Scope) : Bool := !s.inClass && !s.inFunction

def enter (s : Scope) : Label → Scope
  | .classDef name => { s with className := name }
  | .functionDef _ name => { s with functionName := name }
  | _ => s

end Scope

namespace Element

def methodKind (name : String) : ElementKind :=
  if name.startsWith "__" && name.endsWith "__" then .dunderMethod
  else if name.startsWith "_" then .privateMethod
  else .method

def ofFunction (s : Scope) (name : String) (span : Span) : Element :=
  if s.inClass then
    ⟨methodKind name, name, span.line, span.column, "method_in_class_" ++ s.className⟩
  else ⟨.function, name, span.line, span.column, "function_definition"⟩

def ofClass (name : String) (span : Span) : Element :=
  ⟨.classType, name, span.line, span.column, "class_definition"⟩

def isLiteral (t : Tree) : Bool :=
  match t.label with
  | .constant (.number .imaginary _) => false
  | .constant (.bytes _) => false
  | .constant .ellipsis => false
  | .constant _ => true
  | .name id _ => id == "True" || id == "False" || id == "None"
  | _ => false

/-- An assigned name. Names in capitals are constants, and so are names outside of all definitions
that get a literal. -/
def ofTarget (s : Scope) (kindOfAssignment : String) (value : Option Tree) (t : Tree) :
    Option Element :=
  match t.label with
  | .name id _ =>
    let isConstant := Text.isUpper id.toList ||
      (s.isOutermost && (value.map isLiteral).getD false)
    let context :=
      if s.inFunction then s!"{kindOfAssignment}_in_function_{s.functionName}"
      else if s.inClass then s!"{kindOfAssignment}_in_class_{s.className}"
      else kindOfAssignment
    some ⟨if isConstant then .constant else .var, id, t.span.line, t.span.column, context⟩
  | _ => none

def ofNode (s : Scope) (t : Tree) : List Element :=
  match t.label with
  | .classDef name => [ofClass name t.span]
  | .functionDef _ name => [ofFunction s name t.span]
  | .assign => (t.parts .target).filterMap (ofTarget s "assignment" (t.part? .value))
  | .annAssign => (t.parts .target).filterMap (ofTarget s "annotated_assignment" (t.part? .value))
  | _ => []

mutual

def inScope (s : Scope) : Tree → List Element
  | .node l r span cs => ofNode s (.node l r span cs) ++ inScopes (s.enter l) cs

def inScopes (s : Scope) : List Tree → List Element
  | [] => []
  | t :: ts => inScope s t ++ inScopes s ts

end

end Element

def elements (t : Tree) : List Element := Element.inScope .outermost t

end Restyle

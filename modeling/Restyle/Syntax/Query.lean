import Restyle.Syntax.Names
import Restyle.Naming.Words

/-!
Questions about syntax trees. Answers come level by level.
-/

namespace Restyle.Syntax

namespace Label

def isFunction : Label → Bool
  | functionDef _ _ => true
  | _ => false

def isClass : Label → Bool
  | classDef _ => true
  | _ => false

def isAssignment : Label → Bool
  | assign => true
  | annAssign => true
  | _ => false

def ownName? : Label → Option String
  | functionDef _ n => some n
  | classDef n => some n
  | importName n _ => some n
  | exceptHandler n => n
  | matchStar n => n
  | matchAs n => n
  | name id _ => some id
  | _ => none

/-- Whether a node is a definition, or a place where a program can go on in two ways. -/
def isBranch : Label → Bool
  | ifStmt => true
  | whileStmt => true
  | forStmt _ => true
  | exceptHandler _ => true
  | functionDef _ _ => true
  | classDef _ => true
  | _ => false

end Label

namespace Tree

def functions (t : Tree) : List Tree := t.breadthFirst.filter (·.label.isFunction)

def classes (t : Tree) : List Tree := t.breadthFirst.filter (·.label.isClass)

def assignments (t : Tree) : List Tree := t.breadthFirst.filter (·.label.isAssignment)

def usedNames (t : Tree) : List String :=
  t.breadthFirst.filterMap fun n =>
    match n.label with
    | .name id _ => some id
    | .functionDef _ id => some id
    | .classDef id => some id
    | _ => none

def functionNamed? (t : Tree) (name : String) : Option Tree :=
  t.functions.find? (·.label.ownName? == some name)

def classNamed? (t : Tree) (name : String) : Option Tree :=
  t.classes.find? (·.label.ownName? == some name)

def hasMethod (t : Tree) (method className : String) : Bool :=
  match t.classNamed? className with
  | some c =>
    (c.parts .body).any fun n => n.label.isFunction && n.label.ownName? == some method
  | none => false

def hasDecorator (t : Tree) (name : String) : Bool :=
  (t.parts .decorator).any fun d =>
    match d.label with
    | .name id _ => id == name
    | .attr a _ => a == name
    | _ => false

/-- The imported names, each with the name it is imported under if that is another one. -/
def imports (t : Tree) : List (String × Option String) :=
  t.breadthFirst.flatMap fun n =>
    let qualified (path : String) : List (String × Option String) :=
      n.children.filterMap fun c =>
        match c.label with
        | .importName name asName => some (if path.isEmpty then name else s!"{path}.{name}", asName)
        | _ => none
    match n.label with
    | .importStmt => qualified ""
    | .importFrom path _ => qualified (path.getD "")
    | _ => []

def stringLiterals (t : Tree) : List String :=
  t.breadthFirst.filterMap fun n =>
    match n.label with
    | .constant (.string s) => some s
    | _ => none

def complexity (t : Tree) : Nat := (t.breadthFirst.filter (·.label.isBranch)).length

/-- The first and the last line of a node. A file starts before its first line, and ends where its
last statement starts. -/
def lineRange (t : Tree) : Nat × Nat :=
  match t.label with
  | .file => (0, ((t.parts .body).getLast?.map line).getD 0)
  | _ => (t.span.line, t.span.lastLine)

end Tree

end Restyle.Syntax

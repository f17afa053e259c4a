import Restyle.Syntax.Token

/-!
Syntax trees. Every node has a label with its names and constants, the part it plays in its
parent, its place in the source, and its children in the order of the grammar.
-/

namespace Restyle.Syntax

/-- Whether a name or a place is read, assigned or deleted. -/
inductive Access where
  | load
  | store
  | delete
deriving DecidableEq, Repr

inductive Constant where
  | null
  | bool (b : Bool)
  | number (kind : NumberKind) (text : String)
  | string (s : String)
  | bytes (s : String)
  | ellipsis
deriving DecidableEq, Repr

inductive Label where
  | file
  | functionDef (isAsync : Bool) (name : String)
  | classDef (name : String)
  | returnStmt
  | deleteStmt
  | assign
  | augAssign (op : String)
  | annAssign
  | forStmt (isAsync : Bool)
  | whileStmt
  | ifStmt
  | withStmt (isAsync : Bool)
  | matchStmt
  | raiseStmt
  | tryStmt (isGroup : Bool)
  | assertStmt
  | importStmt
  | importFrom (path : Option String) (level : Nat)
  | globalStmt (names : List String)
  | nonlocalStmt (names : List String)
  | exprStmt
  | passStmt
  | breakStmt
  | continueStmt
  | boolOp (op : String)
  | namedExpr
  | binOp (op : String)
  | unaryOp (op : String)
  | lambda
  | ifExp
  | dict
  | set
  | listComp
  | setComp
  | dictComp
  | generatorExp
  | await
  | yield
  | yieldFrom
  | compare (ops : List String)
  | call
  | formattedValue (conversion : Option Char)
  | joinedStr
  | constant (value : Constant)
  | attr (name : String) (access : Access)
  | subscript (access : Access)
  | starred (access : Access)
  | name (id : String) (access : Access)
  | list (access : Access)
  | tuple (access : Access)
  | slice
  | comprehension (isAsync : Bool)
  | exceptHandler (name : Option String)
  | arguments
  | arg (name : String)
  | keyword (name : Option String)
  | importName (name : String) (asName : Option String)
  | withItem
  | matchCase
  | matchValue
  | matchSingleton (value : Constant)
  | matchSequence
  | matchMapping (rest : Option String)
  | matchClass (attrs : List String)
  | matchStar (name : Option String)
  | matchAs (name : Option String)
  | matchOr
deriving DecidableEq, Repr

inductive Role where
  | root
  | body
  | decorator
  | parameters
  | returns
  | base
  | keyword
  | target
  | value
  | typeHint
  | iter
  | orelse
  | test
  | item
  | subject
  | case
  | exc
  | cause
  | handler
  | finalbody
  | message
  | name
  | left
  | right
  | operand
  | key
  | element
  | generator
  | comparator
  | func
  | argument
  | formatSpec
  | slice
  | lower
  | upper
  | step
  | condition
  | type
  | positionalOnly
  | positional
  | vararg
  | keywordOnly
  | keywordDefault
  | kwarg
  | default
  | context
  | bound
  | pattern
  | guard
  | keywordPattern
deriving DecidableEq, Repr

inductive Tree where
  | node (label : Label) (role : Role) (span : Span) (children : List Tree)
deriving Repr

namespace Tree

def label : Tree → Label
  | node l _ _ _ => l

def role : Tree → Role
  | node _ r _ _ => r

def span : Tree → Span
  | node _ _ s _ => s

def children : Tree → List Tree
  | node _ _ _ cs => cs

section

variable (l : Label) (r : Role) (s : Span) (cs : List Tree)

@[simp] theorem label_node : (node l r s cs).label = l := rfl

@[simp] theorem role_node : (node l r s cs).role = r := rfl

@[simp] theorem span_node : (node l r s cs).span = s := rfl

@[simp] theorem children_node : (node l r s cs).children = cs := rfl

end

def line (t : Tree) : Nat := t.span.line

def as (t : Tree) (r : Role) : Tree := node t.label r t.span t.children

def parts (t : Tree) (r : Role) : List Tree := t.children.filter (·.role == r)

def part? (t : Tree) (r : Role) : Option Tree := t.children.find? (·.role == r)

mutual

def size : Tree → Nat
  | node _ _ _ cs => 1 + sizes cs

def sizes : List Tree → Nat
  | [] => 0
  | t :: ts => t.size + sizes ts

end

mutual

def height : Tree → Nat
  | node _ _ _ cs => 1 + heights cs

def heights : List Tree → Nat
  | [] => 0
  | t :: ts => max t.height (heights ts)

end

mutual

def preorder : Tree → List Tree
  | node l r s cs => node l r s cs :: preorders cs

def preorders : List Tree → List Tree
  | [] => []
  | t :: ts => t.preorder ++ preorders ts

end

@[simp] theorem preorder_node (l : Label) (r : Role) (s : Span) (cs : List Tree) :
    (node l r s cs).preorder = node l r s cs :: preorders cs := by rw [preorder]

@[simp] theorem preorders_nil : preorders [] = [] := by rw [preorders]

@[simp] theorem preorders_cons (t : Tree) (ts : List Tree) :
    preorders (t :: ts) = t.preorder ++ preorders ts := by rw [preorders]

/-- The nodes of `level` and of all levels below, as far as `depth` levels go. -/
def levels : Nat → List Tree → List Tree
  | 0, _ => []
  | depth + 1, level => level ++ levels depth (level.flatMap children)

def breadthFirst (t : Tree) : List Tree := levels t.height [t]

end Tree

end Restyle.Syntax

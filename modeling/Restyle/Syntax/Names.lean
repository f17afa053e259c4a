import Restyle.Syntax.Tree

/-!
The names that syntax trees use: for the kinds of nodes, and in the nodes.
-/

namespace Restyle.Syntax

def Label.className : Label → String
  | file => "Module"
  | functionDef isAsync _ => if isAsync then "AsyncFunctionDef" else "FunctionDef"
  | classDef _ => "ClassDef"
  | returnStmt => "Return"
  | deleteStmt => "Delete"
  | assign => "Assign"
  | augAssign _ => "AugAssign"
  | annAssign => "AnnAssign"
  | forStmt isAsync => if isAsync then "AsyncFor" else "For"
  | whileStmt => "While"
  | ifStmt => "If"
  | withStmt isAsync => if isAsync then "AsyncWith" else "With"
  | matchStmt => "Match"
  | raiseStmt => "Raise"
  | tryStmt isGroup => if isGroup then "TryStar" else "Try"
  | assertStmt => "Assert"
  | importStmt => "Import"
  | importFrom _ _ => "ImportFrom"
  | globalStmt _ => "Global"
  | nonlocalStmt _ => "Nonlocal"
  | exprStmt => "Expr"
  | passStmt => "Pass"
  | breakStmt => "Break"
  | continueStmt => "Continue"
  | boolOp _ => "BoolOp"
  | namedExpr => "NamedExpr"
  | binOp _ => "BinOp"
  | unaryOp _ => "UnaryOp"
  | lambda => "Lambda"
  | ifExp => "IfExp"
  | dict => "Dict"
  | set => "Set"
  | listComp => "ListComp"
  | setComp => "SetComp"
  | dictComp => "DictComp"
  | generatorExp => "GeneratorExp"
  | await => "Await"
  | yield => "Yield"
  | yieldFrom => "YieldFrom"
  | compare _ => "Compare"
  | call => "Call"
  | formattedValue _ => "FormattedValue"
  | joinedStr => "JoinedStr"
  | constant _ => "Constant"
  | attr _ _ => "Attribute"
  | subscript _ => "Subscript"
  | starred _ => "Starred"
  | name _ _ => "Name"
  | list _ => "List"
  | tuple _ => "Tuple"
  | slice => "Slice"
  | comprehension _ => "comprehension"
  | exceptHandler _ => "ExceptHandler"
  | arguments => "arguments"
  | arg _ => "arg"
  | keyword _ => "keyword"
  | importName _ _ => "alias"
  | withItem => "withitem"
  | matchCase => "match_case"
  | matchValue => "MatchValue"
  | matchSingleton _ => "MatchSingleton"
  | matchSequence => "MatchSequence"
  | matchMapping _ => "MatchMapping"
  | matchClass _ => "MatchClass"
  | matchStar _ => "MatchStar"
  | matchAs _ => "MatchAs"
  | matchOr => "MatchOr"

inductive NameField where
  | id
  | name
  | attr
  | arg
  | asName
  | names
  | path
deriving DecidableEq, Repr

def NameField.text : NameField → String
  | id => "id"
  | name => "name"
  | attr => "attr"
  | arg => "arg"
  | asName => "asname"
  | names => "names"
  | path => "module"

def Label.names : Label → List (NameField × String)
  | name id _ => [(.id, id)]
  | functionDef _ n => [(.name, n)]
  | classDef n => [(.name, n)]
  | exceptHandler n => n.toList.map (.name, ·)
  | matchStar n => n.toList.map (.name, ·)
  | matchAs n => n.toList.map (.name, ·)
  | attr a _ => [(.attr, a)]
  | arg a => [(.arg, a)]
  | keyword a => a.toList.map (.arg, ·)
  | importName n a => (.name, n) :: a.toList.map (.asName, ·)
  | globalStmt ns => ns.map (.names, ·)
  | nonlocalStmt ns => ns.map (.names, ·)
  | importFrom p _ => p.toList.map (.path, ·)
  | _ => []

/-- A use of a name: the kind of the node, the place in the node, and the name. -/
structure NameUse where
  className : String
  field : NameField
  name : String
deriving DecidableEq, Repr

def Tree.nameUses (t : Tree) : List NameUse :=
  t.preorder.flatMap fun n => n.label.names.map fun (f, s) => ⟨n.label.className, f, s⟩

end Restyle.Syntax

import Restyle.Syntax.Grammar.Expression

/-!
Statements without blocks.
-/

namespace Restyle.Syntax.Grammar

open Restyle.Syntax.Parser

def augmentedOps : List String :=
  ["+=", "-=", "*=", "@=", "/=", "%=", "&=", "|=", "^=", "<<=", ">>=", "**=", "//="]

def assignedSides (r : Rules) : Parser (List Tree) :=
  repeatWhile (isOp "=") do
    op "="
    yieldOrExpressions r

def assignment (start : Span) (first : Tree) (rest : List Tree) : Parser Tree := do
  let value ← lift rest.getLast?
  let targets ← lift ((first :: rest.dropLast).mapM (·.asTarget? .store true))
  node .assign start (targets.map (·.as .target) ++ [value.as .value])

def expressionStatement (r : Rules) : Parser Tree := do
  let start ← here
  let first ← yieldOrExpressions r
  if ← isOp "=" then
    let rest ← assignedSides r
    assignment start first rest
  else if ← acceptOp ":" then
    let target ← lift (first.asPlace? .store)
    let hint ← r.expression
    let value ← optionally (acceptOp "=") (yieldOrExpressions r)
    node .annAssign start (target.as .target :: hint.as .typeHint :: value.map (·.as .value))
  else match ← anyOp augmentedOps with
    | some o =>
      let target ← lift (first.asPlace? .store)
      let value ← yieldOrExpressions r
      node (.augAssign o) start [target.as .target, value.as .value]
    | none => node .exprStmt start [first.as .value]

def returnStatement (r : Rules) (start : Span) : Parser Tree := do
  if ← startsExpression then
    let t ← starExpressions r
    node .returnStmt start [t.as .value]
  else node .returnStmt start []

def raiseStatement (r : Rules) (start : Span) : Parser Tree := do
  if ← startsExpression then
    let exc ← r.expression
    if ← acceptKeyword "from" then
      let cause ← r.expression
      node .raiseStmt start [exc.as .exc, cause.as .cause]
    else node .raiseStmt start [exc.as .exc]
  else node .raiseStmt start []

def deleteStatement (r : Rules) (start : Span) : Parser Tree := do
  let (items, _) ← commaList noExpression r.primary
  let targets ← lift (items.mapM (·.asTarget? .delete false))
  node .deleteStmt start (targets.map (·.as .target))

def assertStatement (r : Rules) (start : Span) : Parser Tree := do
  let test ← r.expression
  if ← acceptOp "," then
    let message ← r.expression
    node .assertStmt start [test.as .test, message.as .message]
  else node .assertStmt start [test.as .test]

def nameList : Parser (List String) := do
  let first ← name
  let rest ← repeatWhile (isOp ",") do
    op ","
    name
  return first :: rest

def dottedName : Parser String := do
  let first ← name
  let rest ← repeatWhile (isOp ".") do
    op "."
    name
  return String.intercalate "." (first :: rest)

def asName : Parser (Option String) := do
  if ← acceptKeyword "as" then return some (← name) else return none

def aliasOf (nameRule : Parser String) : Parser Tree := do
  let start ← here
  let id ← nameRule
  let other ← asName
  let t ← node (.importName id other) start []
  return t.as .name

def importStatement (start : Span) : Parser Tree := do
  let first ← aliasOf dottedName
  let rest ← repeatWhile (isOp ",") do
    op ","
    aliasOf dottedName
  node .importStmt start (first :: rest)

/-- The names of an import: a star, or names that may stand in brackets. -/
def importedNames : Parser (List Tree) := do
  let start ← here
  if ← acceptOp "*" then
    let t ← node (.importName "*" none) start []
    return [t.as .name]
  else if ← acceptOp "(" then
    let (names, _) ← commaList (isOp ")") (aliasOf name)
    op ")"
    return names
  else
    let first ← aliasOf name
    let rest ← repeatWhile (isOp ",") do
      op ","
      aliasOf name
    return first :: rest

def isDots : Parser Bool := do return (← isOp ".") || (← isOp "...")

/-- Where names are imported from. Only dots can stand for it. -/
def importPath (level : Nat) : Parser (Option String) := do
  if ← isName then
    let path ← dottedName
    return some path
  else
    guardThat (level > 0)
    return none

def importFromStatement (start : Span) : Parser Tree := do
  let dots ← repeatWhile isDots do
    if ← acceptOp "..." then return 3
    else
      op "."
      return 1
  let level := dots.foldl (· + ·) 0
  let path ← importPath level
  keyword "import"
  let names ← importedNames
  node (.importFrom path level) start names

def simpleStatement (r : Rules) : Parser Tree := do
  let start ← here
  match ← kind? with
  | some (.keyword k) =>
    if k = "return" then do let _ ← take; returnStatement r start
    else if k = "import" then do let _ ← take; importStatement start
    else if k = "from" then do let _ ← take; importFromStatement start
    else if k = "raise" then do let _ ← take; raiseStatement r start
    else if k = "pass" then do let _ ← take; node .passStmt start []
    else if k = "break" then do let _ ← take; node .breakStmt start []
    else if k = "continue" then do let _ ← take; node .continueStmt start []
    else if k = "del" then do let _ ← take; deleteStatement r start
    else if k = "assert" then do let _ ← take; assertStatement r start
    else if k = "global" then do
      let _ ← take
      let names ← nameList
      node (.globalStmt names) start []
    else if k = "nonlocal" then do
      let _ ← take
      let names ← nameList
      node (.nonlocalStmt names) start []
    else expressionStatement r
  | _ => expressionStatement r

def simpleStatements (r : Rules) : Parser (List Tree) := do
  let first ← simpleStatement r
  let more : Parser Bool := do
    return (← isOp ";") && !((← second?) == some .newline)
  let rest ← repeatWhile more do
    op ";"
    simpleStatement r
  let _ ← acceptOp ";"
  expect .newline
  return first :: rest

end Restyle.Syntax.Grammar

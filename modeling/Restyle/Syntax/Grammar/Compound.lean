import Restyle.Syntax.Grammar.Simple

/-!
Statements with blocks.
-/

namespace Restyle.Syntax.Grammar

open Restyle.Syntax.Parser

def asBody (ts : List Tree) : List Tree := ts.map (·.as .body)

def suite (r : Rules) : Parser (List Tree) := do
  op ":"
  r.block

def optionalSuite (r : Rules) (word : String) (role : Role) : Parser (List Tree) := do
  if ← acceptKeyword word then
    let body ← suite r
    return body.map (·.as role)
  else return []

/-- The tests after the first one, each with its place and its block. -/
def elifClauses (r : Rules) : Parser (List (Span × Tree × List Tree)) :=
  repeatWhile (isKeyword "elif") do
    let start ← here
    keyword "elif"
    let test ← named r
    let body ← suite r
    return (start, test, body)

/-- Every further test stands alone in the other branch of the one before. -/
def chainElse (lastLine : Nat) (last : List Tree) : List (Span × Tree × List Tree) → List Tree
  | [] => last
  | (start, test, body) :: rest =>
    [.node .ifStmt .orelse ⟨start.line, start.column, lastLine⟩
      (test.as .test :: asBody body ++ chainElse lastLine last rest)]

def ifStatement (r : Rules) (start : Span) : Parser Tree := do
  let test ← named r
  let body ← suite r
  let clauses ← elifClauses r
  let last ← optionalSuite r "else" .orelse
  let s ← get
  node .ifStmt start (test.as .test :: asBody body ++ chainElse s.lastLine last clauses)

def whileStatement (r : Rules) (start : Span) : Parser Tree := do
  let test ← named r
  let body ← suite r
  let orelse ← optionalSuite r "else" .orelse
  node .whileStmt start (test.as .test :: asBody body ++ orelse)

def forStatement (r : Rules) (isAsync : Bool) (start : Span) : Parser Tree := do
  let target ← targets r
  keyword "in"
  let iter ← starExpressions r
  let body ← suite r
  let orelse ← optionalSuite r "else" .orelse
  node (.forStmt isAsync) start (target.as .target :: iter.as .iter :: asBody body ++ orelse)

def withItem (r : Rules) : Parser Tree := do
  let start ← here
  let context ← r.expression
  let bound ← optionally (acceptKeyword "as") (starTarget r)
  let t ← node .withItem start (context.as .context :: bound.map (·.as .bound))
  return t.as .item

/-- Items in brackets, if a colon follows the brackets. -/
def bracketedItems (r : Rules) : Parser (List Tree) := do
  op "("
  let (items, _) ← commaList (isOp ")") (withItem r)
  op ")"
  guardThat (← isOp ":")
  return items

def plainItems (r : Rules) : Parser (List Tree) := do
  let first ← withItem r
  let rest ← repeatWhile (isOp ",") do
    op ","
    withItem r
  return first :: rest

def withStatement (r : Rules) (isAsync : Bool) (start : Span) : Parser Tree := do
  let items ← bracketedItems r <|> plainItems r
  let body ← suite r
  node (.withStmt isAsync) start (items ++ asBody body)

/-- What a handler handles, and the name for it. A handler of a group has to say it. -/
def handled (r : Rules) (isGroup : Bool) : Parser (List Tree × Option String) := do
  if ← isOp ":" then
    guardThat !isGroup
    return ([], none)
  else
    let t ← r.expression
    let id ← asName
    return ([t.as .type], id)

def exceptHandler (r : Rules) (isGroup : Bool) : Parser Tree := do
  let start ← here
  keyword "except"
  (if isGroup then op "*" else pure ())
  let (type, id) ← handled r isGroup
  let body ← suite r
  let t ← node (.exceptHandler id) start (type ++ asBody body)
  return t.as .handler

def tryStatement (r : Rules) (start : Span) : Parser Tree := do
  let body ← suite r
  let isGroup := (← isKeyword "except") && (← second?) == some (.op "*")
  let handlers ← repeatWhile (isKeyword "except") (exceptHandler r isGroup)
  let orelse ← (if handlers.isEmpty then pure [] else optionalSuite r "else" .orelse)
  let final ← optionalSuite r "finally" .finalbody
  guardThat (!(handlers.isEmpty && final.isEmpty))
  node (.tryStmt isGroup) start (asBody body ++ handlers ++ orelse ++ final)

def functionStatement (r : Rules) (isAsync : Bool) (start : Span) (decorators : List Tree) :
    Parser Tree := do
  keyword "def"
  let id ← name
  op "("
  let params ← parameters r true ")"
  op ")"
  let returns ← optionally (acceptOp "->") r.expression
  let body ← suite r
  node (.functionDef isAsync id) start
    (params.as .parameters :: asBody body ++ decorators ++ returns.map (·.as .returns))

def classArguments (r : Rules) : Parser (List Tree × List Tree) := do
  if ← acceptOp "(" then callArguments r else return ([], [])

def classStatement (r : Rules) (start : Span) (decorators : List Tree) : Parser Tree := do
  keyword "class"
  let id ← name
  let (bases, keywords) ← classArguments r
  let body ← suite r
  node (.classDef id) start (bases.map (·.as .base) ++ keywords ++ asBody body ++ decorators)

def definition (r : Rules) (decorators : List Tree) : Parser Tree := do
  let start ← here
  if ← isKeyword "class" then classStatement r start decorators
  else
    let isAsync ← acceptKeyword "async"
    functionStatement r isAsync start decorators

def decorated (r : Rules) : Parser Tree := do
  let decorators ← repeatWhile (isOp "@") do
    op "@"
    let t ← named r
    expect .newline
    return t.as .decorator
  definition r decorators

def asyncStatement (r : Rules) (start : Span) : Parser Tree := do
  if (← second?) == some (.keyword "def") then definition r []
  else
    keyword "async"
    if ← acceptKeyword "for" then forStatement r true start
    else
      keyword "with"
      withStatement r true start

end Restyle.Syntax.Grammar

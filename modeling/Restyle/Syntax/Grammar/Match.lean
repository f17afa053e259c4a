import Restyle.Syntax.Grammar.Pattern
import Restyle.Syntax.Grammar.Compound

/-!
The `match` statement.
-/

namespace Restyle.Syntax.Grammar

open Restyle.Syntax.Parser

def caseBlock (r : Rules) : Parser Tree := do
  let start ← here
  expect (.name "case")
  let pattern ← casePattern r
  let guard ← optionally (acceptKeyword "if") (named r)
  let body ← suite r
  let t ← node .matchCase start (pattern.as .pattern :: guard.map (·.as .guard) ++ asBody body)
  return t.as .case

def matchSubject (r : Rules) : Parser Tree := do
  let start ← here
  let isStar ← isOp "*"
  let items ← commaList noExpression (starNamed r)
  let one (t : Tree) : Parser Tree := do
    guardThat !isStar
    return t
  oneOr items one fun ts => node (.tuple .load) start (ts.map (·.as .element))

def matchStatement (r : Rules) : Parser Tree := do
  let start ← here
  expect (.name "match")
  let subject ← matchSubject r
  op ":"
  expect .newline
  expect .indent
  let first ← caseBlock r
  let rest ← repeatWhile (isNext (.name "case")) (caseBlock r)
  expect .dedent
  node .matchStmt start (subject.as .subject :: first :: rest)

end Restyle.Syntax.Grammar

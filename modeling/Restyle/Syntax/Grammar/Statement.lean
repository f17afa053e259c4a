import Restyle.Syntax.Grammar.Match

/-!
Statements, blocks and files. Here the rules are tied to themselves.
-/

namespace Restyle.Syntax.Grammar

open Restyle.Syntax.Parser

variable [Dialect]

def statement (r : Rules) : Parser (List Tree) := do
  let start ← here
  let single (p : Parser Tree) : Parser (List Tree) := do
    let t ← p
    return [t]
  match ← kind? with
  | some (.keyword k) =>
    if k = "if" then do let _ ← take; single (ifStatement r start)
    else if k = "while" then do let _ ← take; single (whileStatement r start)
    else if k = "for" then do let _ ← take; single (forStatement r false start)
    else if k = "try" then do let _ ← take; single (tryStatement r start)
    else if k = "with" then do let _ ← take; single (withStatement r false start)
    else if k = "def" ∨ k = "class" then single (definition r [])
    else if k = "async" then single (asyncStatement r start)
    else simpleStatements r
  | some (.op o) => if o = "@" then single (decorated r) else simpleStatements r
  | some (.name word) =>
    if word = "match" then single (matchStatement r) <|> simpleStatements r
    else simpleStatements r
  | _ => simpleStatements r

/-- Statements on lines of their own, or on the line of the colon. -/
def block (r : Rules) : Parser (List Tree) := do
  if ← accept .newline then
    expect .indent
    let first ← statement r
    let rest ← repeatWhile (do return !(← isNext .dedent)) (statement r)
    expect .dedent
    return first ++ rest.flatten
  else simpleStatements r

def step (r : Rules) : Rules where
  expression := expression r
  starExpressions := starExpressions r
  disjunction := disjunction r
  inversion := inversion r
  bitwiseOr := bitwiseOr r
  factor := factor r
  primary := primary r
  block := block r
  pattern := pattern r

/-- The rules tied to themselves, as deep as `depth`. -/
def rules : Nat → Rules
  | 0 => Rules.none
  | depth + 1 => step (rules depth)

def file (r : Rules) : Parser (List Tree) := do
  let more : Parser Bool := do return (← token?).isSome
  let statements ← repeatWhile more (statement r)
  return statements.flatten

end Restyle.Syntax.Grammar

import Restyle.Syntax.Grammar.Basic

/-!
The grammar is a set of rules. Rules that come back to themselves do so through a record of rules,
which is tied to itself at the end of the grammar. Here are the record and the lists of expressions.
-/

namespace Restyle.Syntax

open Restyle.Syntax.Parser

/-- The rules that other rules come back to. -/
structure Rules where
  expression : Parser Tree
  starExpressions : Parser Tree
  disjunction : Parser Tree
  inversion : Parser Tree
  bitwiseOr : Parser Tree
  factor : Parser Tree
  primary : Parser Tree
  block : Parser (List Tree)
  pattern : Parser Tree

def Rules.none : Rules :=
  ⟨failure, failure, failure, failure, failure, failure, failure, failure, failure⟩

namespace Grammar

def startsExpression : Parser Bool := do
  match ← kind? with
  | some (.name _) => return true
  | some (.number _ _) => return true
  | some (.string _) => return true
  | some (.keyword k) =>
    return ["None", "True", "False", "not", "lambda", "await"].contains k
  | some (.op o) => return ["(", "[", "\x7b", "-", "+", "~", "...", "*"].contains o
  | _ => return false

def noExpression : Parser Bool := do return !(← startsExpression)

def starOr (r : Rules) (plain : Parser Tree) : Parser Tree := do
  let start ← here
  if ← acceptOp "*" then
    let inner ← r.bitwiseOr
    node (.starred .load) start [inner.as .value]
  else plain

def starExpressions (r : Rules) : Parser Tree := do
  let start ← here
  let items ← commaList noExpression (starOr r r.expression)
  oneOr items pure fun ts => node (.tuple .load) start (ts.map (·.as .element))

def isBinding : Parser Bool := do
  return (← isName) && (← second?) == some (.op ":=")

/-- An expression that may be bound to a name with `:=`. -/
def named (r : Rules) : Parser Tree := do
  let start ← here
  if ← isBinding then
    let id ← name
    let target ← node (.name id .store) start []
    op ":="
    let value ← r.expression
    node .namedExpr start [target.as .target, value.as .value]
  else
    let t ← r.expression
    guardThat !(← isOp ":=")
    return t

def starNamed (r : Rules) : Parser Tree := starOr r (named r)

def yieldExpr (r : Rules) : Parser Tree := do
  let start ← here
  keyword "yield"
  if ← acceptKeyword "from" then
    let value ← r.expression
    node .yieldFrom start [value.as .value]
  else if ← startsExpression then
    let value ← r.starExpressions
    node .yield start [value.as .value]
  else node .yield start []

def yieldOrExpressions (r : Rules) : Parser Tree := do
  if ← isKeyword "yield" then yieldExpr r else starExpressions r

end Grammar

end Restyle.Syntax

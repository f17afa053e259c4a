import Restyle.Syntax.Grammar.Rules
import Restyle.Syntax.Grammar.Target

/-!
Targets, and the clauses of comprehensions.
-/

namespace Restyle.Syntax

open Restyle.Syntax.Parser

namespace Grammar

def isFor : Parser Bool := do
  if ← isKeyword "for" then return true
  else return (← isKeyword "async") && (← second?) == some (.keyword "for")

def starTarget (r : Rules) : Parser Tree := do
  let start ← here
  if ← acceptOp "*" then
    let inner ← r.primary
    let inner ← lift (inner.asTarget? .store false)
    node (.starred .store) start [inner.as .value]
  else
    let t ← r.primary
    lift (t.asTarget? .store false)

def targets (r : Rules) : Parser Tree := do
  let start ← here
  let items ← commaList (isKeyword "in") (starTarget r)
  oneOr items pure fun ts => node (.tuple .store) start (ts.map (·.as .element))

def clauses (r : Rules) : Parser (List Tree) :=
  repeatWhile isFor do
    let start ← here
    let isAsync ← acceptKeyword "async"
    keyword "for"
    let target ← targets r
    keyword "in"
    let iter ← r.disjunction
    let conditions ← repeatWhile (isKeyword "if") do
      keyword "if"
      r.disjunction
    let t ← node (.comprehension isAsync) start
      (target.as .target :: iter.as .iter :: conditions.map (·.as .condition))
    return t.as .generator

end Grammar

end Restyle.Syntax

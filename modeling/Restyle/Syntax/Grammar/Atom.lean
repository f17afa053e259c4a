import Restyle.Syntax.Grammar.Strings
import Restyle.Syntax.Grammar.Comprehension
import Restyle.Syntax.Grammar.Arguments

/-!
Expressions without operators.
-/

namespace Restyle.Syntax

open Restyle.Syntax.Parser

namespace Grammar

variable [Dialect]

/-- What follows an opening round bracket: a tuple, a generator or an expression. -/
def roundAtom (r : Rules) (start : Span) : Parser Tree := do
  if ← acceptOp ")" then node (.tuple .load) start []
  else if ← isKeyword "yield" then
    let t ← yieldExpr r
    op ")"
    return t
  else
    let isStar ← isOp "*"
    let first ← starNamed r
    if (← isFor) && !isStar then
      let gens ← clauses r
      op ")"
      node .generatorExp start (first.as .element :: gens)
    else if ← acceptOp "," then
      let rest ← itemsUpTo ")" (starNamed r)
      op ")"
      node (.tuple .load) start ((first :: rest).map (·.as .element))
    else
      guardThat !isStar
      op ")"
      return first

def squareAtom (r : Rules) (start : Span) : Parser Tree := do
  if ← acceptOp "]" then node (.list .load) start []
  else
    let isStar ← isOp "*"
    let first ← starNamed r
    if (← isFor) && !isStar then
      let gens ← clauses r
      op "]"
      node .listComp start (first.as .element :: gens)
    else
      let rest ← moreItems "]" (starNamed r)
      op "]"
      node (.list .load) start ((first :: rest).map (·.as .element))

def dictItem (r : Rules) : Parser (Option Tree × Tree) := do
  if ← acceptOp "**" then return (none, ← r.bitwiseOr)
  else
    let key ← r.expression
    op ":"
    return (some key, ← r.expression)

def dictNode (start : Span) (items : List (Option Tree × Tree)) : Parser Tree :=
  node .dict start ((items.filterMap (·.1)).map (·.as .key) ++ items.map (·.2.as .value))

def braceAtom (r : Rules) (start : Span) : Parser Tree := do
  let close := "\x7d"
  if ← acceptOp close then node .dict start []
  else if ← isOp "**" then
    let (items, _) ← commaList (isOp close) (dictItem r)
    op close
    dictNode start items
  else
    let isStar ← isOp "*"
    let isBound ← isBinding
    let first ← starNamed r
    if (← isOp ":") && !isStar && !isBound then
      op ":"
      let value ← r.expression
      if ← isFor then
        let gens ← clauses r
        op close
        node .dictComp start (first.as .key :: value.as .value :: gens)
      else
        let rest ← moreItems close (dictItem r)
        op close
        dictNode start ((some first, value) :: rest)
    else if (← isFor) && !isStar then
      let gens ← clauses r
      op close
      node .setComp start (first.as .element :: gens)
    else
      let rest ← moreItems close (starNamed r)
      op close
      node .set start ((first :: rest).map (·.as .element))

def constantWord? : String → Option Constant
  | "None" => some .null
  | "True" => some (.bool true)
  | "False" => some (.bool false)
  | _ => none

def atom (r : Rules) : Parser Tree := do
  let start ← here
  match ← kind? with
  | some (.name word) =>
    let _ ← take
    node (.name (identifier word) .load) start []
  | some (.number kind text) =>
    let _ ← take
    node (.constant (.number kind text)) start []
  | some (.string _) => strings r
  | some (.keyword k) =>
    let value ← lift (constantWord? k)
    let _ ← take
    node (.constant value) start []
  | some (.op o) =>
    let _ ← take
    if o = "(" then roundAtom r start
    else if o = "[" then squareAtom r start
    else if o = "\x7b" then braceAtom r start
    else if o = "..." then node (.constant .ellipsis) start []
    else failure
  | _ => failure

end Grammar

end Restyle.Syntax

import Restyle.Syntax.Grammar.Rules

/-!
Arguments of calls, indices of subscripts, and parameters of functions.
-/

namespace Restyle.Syntax

open Restyle.Syntax.Parser

namespace Grammar

/-! ### Arguments -/

inductive CallItem where
  | positional (t : Tree)
  | starred (t : Tree)
  | keyword (t : Tree)
  | doubleStar (t : Tree)

/-- Sorts arguments. Keywords come after all plain arguments, and double stars after all stars. -/
def CallItem.arrange (keywords doubles : Bool) : List CallItem → Option (List Tree × List Tree)
  | [] => some ([], [])
  | i :: rest =>
    match i with
    | .positional t =>
      if keywords || doubles then none
      else (arrange false false rest).map fun (a, k) => (t.as .argument :: a, k)
    | .starred t =>
      if doubles then none
      else (arrange keywords false rest).map fun (a, k) => (t.as .argument :: a, k)
    | .keyword t => (arrange true doubles rest).map fun (a, k) => (a, t.as .keyword :: k)
    | .doubleStar t => (arrange keywords true rest).map fun (a, k) => (a, t.as .keyword :: k)

def callItem (r : Rules) : Parser CallItem := do
  let start ← here
  if ← acceptOp "*" then
    let value ← r.expression
    return .starred (← node (.starred .load) start [value.as .value])
  else if ← acceptOp "**" then
    let value ← r.expression
    return .doubleStar (← node (.keyword none) start [value.as .value])
  else if (← isName) && (← second?) == some (.op "=") then
    let id ← name
    op "="
    let value ← r.expression
    return .keyword (← node (.keyword (some id)) start [value.as .value])
  else return .positional (← named r)

/-- Arguments after the first one, up to the closing bracket: the plain ones and the keywords. -/
def moreArguments (r : Rules) (first : CallItem) : Parser (List Tree × List Tree) := do
  let rest ← moreItems ")" (callItem r)
  op ")"
  lift (CallItem.arrange false false (first :: rest))

def callArguments (r : Rules) : Parser (List Tree × List Tree) := do
  if ← acceptOp ")" then return ([], [])
  else
    let first ← callItem r
    moreArguments r first

def sliceBound (r : Rules) : Parser (List Tree) := optionally startsExpression r.expression

def subscriptItem (r : Rules) : Parser Tree := do
  let start ← here
  if ← acceptOp "*" then
    let value ← r.expression
    node (.starred .load) start [value.as .value]
  else
    let isBound ← isBinding
    let first ← optionally (do return !(← isOp ":")) (named r)
    if (← isOp ":") && !isBound then
      op ":"
      let upper ← sliceBound r
      let step ← (if ← acceptOp ":" then sliceBound r else pure [])
      node .slice start
        (first.map (·.as .lower) ++ upper.map (·.as .upper) ++ step.map (·.as .step))
    else
      match first with
      | [t] => return t
      | _ => failure

def subscriptItems (r : Rules) : Parser Tree := do
  let start ← here
  let items ← commaList (isOp "]") (subscriptItem r)
  let one (t : Tree) : Parser Tree :=
    match t.label with
    | .starred _ => node (.tuple .load) start [t.as .element]
    | _ => return t
  oneOr items one fun ts => node (.tuple .load) start (ts.map (·.as .element))

/-! ### Parameters -/

inductive ParamItem where
  | plain (arg : Tree) (default : Option Tree)
  | slash
  | star (arg : Option Tree)
  | doubleStar (arg : Tree)

structure Params where
  positionalOnly : List Tree
  positional : List Tree
  defaults : List Tree
  vararg : Option Tree
  hasStar : Bool
  keywordOnly : List Tree
  keywordDefaults : List Tree
  kwarg : Option Tree

namespace Params

def empty : Params := ⟨[], [], [], none, false, [], [], none⟩

def add (p : Params) (item : ParamItem) : Option Params :=
  if p.kwarg.isSome then none
  else match item with
    | .plain arg default =>
      if p.hasStar then
        some { p with keywordOnly := p.keywordOnly ++ [arg],
                      keywordDefaults := p.keywordDefaults ++ default.toList }
      else if default.isNone && !p.defaults.isEmpty then none
      else some { p with positional := p.positional ++ [arg],
                         defaults := p.defaults ++ default.toList }
    | .slash =>
      if p.hasStar || p.positional.isEmpty || !p.positionalOnly.isEmpty then none
      else some { p with positionalOnly := p.positional, positional := [] }
    | .star arg =>
      if p.hasStar then none else some { p with hasStar := true, vararg := arg }
    | .doubleStar arg => some { p with kwarg := some arg }

/-- A star without a name has to be followed by parameters. -/
def isComplete (p : Params) : Bool := !p.hasStar || p.vararg.isSome || !p.keywordOnly.isEmpty

def children (p : Params) : List Tree :=
  p.positionalOnly.map (·.as .positionalOnly) ++ p.positional.map (·.as .positional) ++
    p.vararg.toList.map (·.as .vararg) ++ p.keywordOnly.map (·.as .keywordOnly) ++
    p.keywordDefaults.map (·.as .keywordDefault) ++ p.kwarg.toList.map (·.as .kwarg) ++
    p.defaults.map (·.as .default)

end Params

def paramHint (r : Rules) (annotated starred : Bool) : Parser (List Tree) :=
  if annotated then
    optionally (acceptOp ":") (if starred then starOr r r.expression else r.expression)
  else pure []

def param (r : Rules) (annotated starred : Bool) : Parser Tree := do
  let start ← here
  let id ← name
  let hint ← paramHint r annotated starred
  node (.arg id) start (hint.map (·.as .typeHint))

def paramItem (r : Rules) (annotated : Bool) : Parser ParamItem := do
  if ← acceptOp "/" then return .slash
  else if ← acceptOp "*" then
    if ← isOp "," then return .star none
    else return .star (some (← param r annotated true))
  else if ← acceptOp "**" then return .doubleStar (← param r annotated false)
  else
    let arg ← param r annotated false
    if ← acceptOp "=" then return .plain arg (some (← r.expression))
    else return .plain arg none

/-- Parameters up to the token `close`, which is not taken. -/
def parameters (r : Rules) (annotated : Bool) (close : String) : Parser Tree := do
  let start ← here
  if ← isOp close then node .arguments start []
  else
    let (items, _) ← commaList (isOp close) (paramItem r annotated)
    let p ← lift (items.foldlM Params.add Params.empty)
    guardThat p.isComplete
    node .arguments start p.children

def lambda (r : Rules) : Parser Tree := do
  let start ← here
  keyword "lambda"
  let params ← parameters r false ":"
  op ":"
  let body ← r.expression
  node .lambda start [params.as .parameters, body.as .body]

end Grammar

end Restyle.Syntax

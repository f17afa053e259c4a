import Restyle.Syntax.Grammar.Atom

/-!
Expressions with operators, from the tightest to the loosest.
-/

namespace Restyle.Syntax

open Restyle.Syntax.Parser

namespace Grammar

variable [Dialect]

def isTrailer : Parser Bool := do
  return (← isOp ".") || (← isOp "(") || (← isOp "[")

/-- A call of `func`. A generator as the only argument keeps the brackets of the call. -/
def call (r : Rules) (start : Span) (func : Tree) : Parser Tree := do
  let bracket ← here
  op "("
  if ← acceptOp ")" then node .call start [func.as .func]
  else
    let first ← callItem r
    match first, ← isFor with
    | .positional element, true =>
      let gens ← clauses r
      op ")"
      let t ← node .generatorExp bracket (element.as .element :: gens)
      node .call start [func.as .func, t.as .argument]
    | _, _ =>
      let (args, keywords) ← moreArguments r first
      node .call start (func.as .func :: args ++ keywords)

/-- An attribute, a call or an item of `t`, which started at `start`. -/
def trailer (r : Rules) (start : Span) (t : Tree) :
    Parser Tree := do
  if ← acceptOp "." then
    let attr ← name
    node (.attr attr .load) start [t.as .value]
  else if ← isOp "(" then call r start t
  else
    op "["
    let index ← subscriptItems r
    op "]"
    node (.subscript .load) start [t.as .value, index.as .slice]

def extendWhile (more : Parser Bool) (extend : Tree → Parser Tree) (t : Tree) : Parser Tree :=
  fun s => go s.tokens.length t s
where
  /-- At most `n` rounds. -/
  go : Nat → Tree → Parser Tree
    | 0, t => do
      if ← more then failure else return t
    | n + 1, t => do
      if ← more then
        let t ← extend t
        go n t
      else return t

def primary (r : Rules) : Parser Tree := do
  let start ← here
  let t ← atom r
  extendWhile isTrailer (trailer r start) t

def awaited (r : Rules) : Parser Tree := do
  let start ← here
  if ← acceptKeyword "await" then
    let t ← primary r
    node .await start [t.as .value]
  else primary r

def power (r : Rules) : Parser Tree := do
  let start ← here
  let base ← awaited r
  if ← acceptOp "**" then
    let right ← r.factor
    node (.binOp "**") start [base.as .left, right.as .right]
  else return base

def factor (r : Rules) : Parser Tree := do
  let start ← here
  match ← anyOp ["+", "-", "~"] with
  | some o =>
    let t ← r.factor
    node (.unaryOp o) start [t.as .operand]
  | none => power r

/-- Operands of one level with its operators between them, grouped to the left. -/
def leftAssoc (ops : List String) (operand : Parser Tree) : Parser Tree := do
  let start ← here
  let first ← operand
  let more : Parser Bool := do
    match ← kind? with
    | some (.op o) => return ops.contains o
    | _ => return false
  let extend (left : Tree) : Parser Tree := do
    match ← anyOp ops with
    | some o =>
      let right ← operand
      node (.binOp o) start [left.as .left, right.as .right]
    | none => failure
  extendWhile more extend first

/-- The binary operators, from the loosest to the tightest. -/
def binaryLevels : List (List String) :=
  [["|"], ["^"], ["&"], ["<<", ">>"], ["+", "-"], ["*", "/", "//", "%", "@"]]

def bitwiseOr (r : Rules) : Parser Tree := binaryLevels.foldr leftAssoc (factor r)

def comparator? : Parser (Option String) := do
  match ← kind? with
  | some (.op _) => anyOp ["==", "!=", "<=", "<", ">=", ">"]
  | some (.keyword "in") =>
    let _ ← take
    return some "in"
  | some (.keyword "is") =>
    let _ ← take
    return some (if ← acceptKeyword "not" then "is not" else "is")
  | some (.keyword "not") =>
    if (← second?) == some (.keyword "in") then
      let _ ← take
      let _ ← take
      return some "not in"
    else return none
  | _ => return none

def isComparator : Parser Bool := fun s =>
  match comparator? s with
  | some (o, _) => some (o.isSome, s)
  | none => some (false, s)

def comparison (r : Rules) : Parser Tree := do
  let start ← here
  let left ← bitwiseOr r
  let pairs ← repeatWhile isComparator do
    match ← comparator? with
    | some o => return (o, ← bitwiseOr r)
    | none => failure
  if pairs.isEmpty then return left
  else
    let label := Label.compare (pairs.map (·.1))
    node label start (left.as .left :: pairs.map (·.2.as .comparator))

def inversion (r : Rules) : Parser Tree := do
  let start ← here
  if ← acceptKeyword "not" then
    let t ← r.inversion
    node (.unaryOp "not") start [t.as .operand]
  else comparison r

def boolean (word : String) (operand : Parser Tree) : Parser Tree := do
  let start ← here
  let first ← operand
  let rest ← repeatWhile (isKeyword word) do
    keyword word
    operand
  if rest.isEmpty then return first
  else node (.boolOp word) start ((first :: rest).map (·.as .value))

def disjunction (r : Rules) : Parser Tree := boolean "or" (boolean "and" (inversion r))

def expression (r : Rules) : Parser Tree := do
  if ← isKeyword "lambda" then lambda r
  else
    let start ← here
    let body ← disjunction r
    if ← acceptKeyword "if" then
      let test ← disjunction r
      keyword "else"
      let orelse ← r.expression
      node .ifExp start [test.as .test, body.as .body, orelse.as .orelse]
    else return body

end Grammar

end Restyle.Syntax

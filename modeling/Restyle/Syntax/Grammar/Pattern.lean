import Restyle.Syntax.Grammar.Expression

/-!
The grammar of patterns in `match` statements.
-/

namespace Restyle.Syntax.Grammar

open Restyle.Syntax.Parser

variable [Dialect]

def captureName : Parser String := do
  guardThat !(← isNext (.name "_"))
  name

def isNumber : Parser Bool := do
  match ← kind? with
  | some (.number _ _) => return true
  | _ => return false

/-- A number, possibly with a minus, and whether it is imaginary. -/
def signedNumber : Parser (Tree × Bool) := do
  let start ← here
  let negative ← acceptOp "-"
  let inner ← here
  match (← take).kind with
  | .number kind text =>
    let t ← node (.constant (.number kind text)) inner []
    let t ← (if negative then node (.unaryOp "-") start [t.as .operand] else pure t)
    return (t, kind == .imaginary)
  | _ => failure

def numberPattern : Parser Tree := do
  let start ← here
  let (left, imaginary) ← signedNumber
  match ← anyOp ["+", "-"] with
  | none => return left
  | some o =>
    guardThat (!imaginary && (← isNumber))
    let (right, imaginary) ← signedNumber
    guardThat imaginary
    node (.binOp o) start [left.as .left, right.as .right]

def dottedValue : Parser (Tree × Bool) := do
  let start ← here
  let id ← name
  let first ← node (.name id .load) start []
  let dotted ← isOp "."
  let t ← extendWhile (isOp ".") (fun t => do
    op "."
    let attr ← name
    node (.attr attr .load) start [t.as .value]) first
  return (t, dotted)

def valueNode (start : Span) (t : Tree) : Parser Tree := node .matchValue start [t.as .value]

def maybeStarPattern (r : Rules) : Parser Tree := do
  let start ← here
  if ← acceptOp "*" then
    if ← accept (.name "_") then node (.matchStar none) start []
    else
      let id ← name
      node (.matchStar (some id)) start []
  else r.pattern

def sequenceParts (r : Rules) (close : String) : Parser (List Tree × Bool) := do
  if ← isOp close then return ([], false)
  else commaList (isOp close) (maybeStarPattern r)

def asPatterns (ts : List Tree) : List Tree := ts.map (·.as .pattern)

/-- One pattern, or several as a sequence. A star is only possible in a sequence. -/
def sequenceNode (start : Span) (isStar : Bool) (parts : List Tree × Bool) : Parser Tree :=
  let one (t : Tree) : Parser Tree := do
    guardThat !isStar
    return t
  oneOr parts one fun ts => node .matchSequence start (asPatterns ts)

def roundPattern (r : Rules) (start : Span) : Parser Tree := do
  op "("
  let isStar ← isOp "*"
  let parts ← sequenceParts r ")"
  op ")"
  sequenceNode start isStar parts

def squarePattern (r : Rules) (start : Span) : Parser Tree := do
  op "["
  let (parts, _) ← sequenceParts r "]"
  op "]"
  node .matchSequence start (asPatterns parts)

def constantHere? : Parser (Option Constant) := do
  match ← kind? with
  | some (.keyword k) => return constantWord? k
  | _ => return none

def mappingKey (r : Rules) : Parser Tree := do
  let start ← here
  if ← isString then strings r
  else match ← constantHere? with
    | some c =>
      let _ ← take
      node (.constant c) start []
    | none =>
      if ← isName then
        let (t, dotted) ← dottedValue
        guardThat dotted
        return t
      else numberPattern

inductive MappingItem where
  | pair (key pattern : Tree)
  | rest (name : String)

def mappingItem (r : Rules) : Parser MappingItem := do
  if ← acceptOp "**" then return .rest (← captureName)
  else
    let key ← mappingKey r
    op ":"
    return .pair key (← r.pattern)

/-- The keys, the patterns and the name for the rest, which has to come last. -/
def MappingItem.arrange : List MappingItem → Option (List Tree × List Tree × Option String)
  | [] => some ([], [], none)
  | [.rest id] => some ([], [], some id)
  | .rest _ :: _ => none
  | .pair k p :: more =>
    (arrange more).map fun (ks, ps, last) => (k.as .key :: ks, p.as .pattern :: ps, last)

def mappingPattern (r : Rules) (start : Span) : Parser Tree := do
  op "\x7b"
  let items ← itemsUpTo "\x7d" (mappingItem r)
  op "\x7d"
  let (keys, patterns, rest) ← lift (MappingItem.arrange items)
  node (.matchMapping rest) start (keys ++ patterns)

inductive ClassItem where
  | positional (pattern : Tree)
  | keyword (name : String) (pattern : Tree)

def classItem (r : Rules) : Parser ClassItem := do
  if (← isName) && (← second?) == some (.op "=") then
    let id ← name
    op "="
    return .keyword id (← r.pattern)
  else return .positional (← r.pattern)

/-- The positional patterns, the names and the patterns under names. Names come last. -/
def ClassItem.arrange (named : Bool) :
    List ClassItem → Option (List Tree × List String × List Tree)
  | [] => some ([], [], [])
  | .positional p :: more =>
    if named then none
    else (arrange false more).map fun (ps, ns, ks) => (p.as .pattern :: ps, ns, ks)
  | .keyword n p :: more =>
    (arrange true more).map fun (ps, ns, ks) => (ps, n :: ns, p.as .keywordPattern :: ks)

def classPattern (r : Rules) (start : Span) (cls : Tree) : Parser Tree := do
  op "("
  let items ← itemsUpTo ")" (classItem r)
  op ")"
  let (positional, names, keywords) ← lift (ClassItem.arrange false items)
  node (.matchClass names) start (cls.as .type :: positional ++ keywords)

def namePattern (r : Rules) (start : Span) : Parser Tree := do
  if (← kind?) == some (.name "_") then
    let _ ← take
    node (.matchAs none) start []
  else
    let (t, dotted) ← dottedValue
    if ← isOp "(" then classPattern r start t
    else if dotted then
      guardThat !(← isOp "=")
      valueNode start t
    else
      guardThat !(← isOp "=")
      match t.label with
      | .name id _ => node (.matchAs (some id)) start []
      | _ => failure

def closedPattern (r : Rules) : Parser Tree := do
  let start ← here
  match ← kind? with
  | some (.name _) => namePattern r start
  | some (.string _) => do
    let t ← strings r
    valueNode start t
  | some (.keyword k) => do
    let c ← lift (constantWord? k)
    let _ ← take
    node (.matchSingleton c) start []
  | some (.op o) =>
    if o = "(" then roundPattern r start
    else if o = "[" then squarePattern r start
    else if o = "\x7b" then mappingPattern r start
    else do
      let t ← numberPattern
      valueNode start t
  | _ => do
    let t ← numberPattern
    valueNode start t

def pattern (r : Rules) : Parser Tree := do
  let start ← here
  let first ← closedPattern r
  let rest ← repeatWhile (isOp "|") do
    op "|"
    closedPattern r
  let t ← (if rest.isEmpty then pure first
    else node .matchOr start (asPatterns (first :: rest)))
  if ← acceptKeyword "as" then
    let id ← captureName
    node (.matchAs (some id)) start [t.as .pattern]
  else return t

/-- The pattern of a case, which may be a sequence without brackets. -/
def casePattern (r : Rules) : Parser Tree := do
  let start ← here
  let stop : Parser Bool := do return (← isOp ":") || (← isKeyword "if")
  let isStar ← isOp "*"
  let parts ← commaList stop (maybeStarPattern r)
  sequenceNode start isStar parts

end Restyle.Syntax.Grammar

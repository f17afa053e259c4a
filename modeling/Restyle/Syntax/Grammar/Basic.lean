import Restyle.Syntax.Tree
import Restyle.Text.Normal

/-!
Parsers over lists of tokens. A parser takes tokens from the front and gives a result, or fails.
-/

namespace Restyle.Syntax

structure ParseState where
  tokens : List Token
  /-- The last line of the last visible token taken. -/
  lastLine : Nat

abbrev Parser := StateT ParseState Option

namespace Parser

def token? : Parser (Option Token) := fun s => some (s.tokens.head?, s)

def kind? : Parser (Option TokenKind) := fun s => some (s.tokens.head?.map (·.kind), s)

def second? : Parser (Option TokenKind) := fun s => some (s.tokens.tail.head?.map (·.kind), s)

def take : Parser Token := fun s =>
  match s.tokens with
  | [] => none
  | t :: rest => some (t, ⟨rest, if t.isVisible then t.span.lastLine else s.lastLine⟩)

def here : Parser Span := fun s => s.tokens.head?.map fun t => (t.span, s)

def isNext (k : TokenKind) : Parser Bool := do return (← kind?) == some k

def isOp (text : String) : Parser Bool := isNext (.op text)

def isKeyword (text : String) : Parser Bool := isNext (.keyword text)

def accept (k : TokenKind) : Parser Bool := do
  if ← isNext k then
    let _ ← take
    return true
  else return false

def acceptOp (text : String) : Parser Bool := accept (.op text)

def acceptKeyword (text : String) : Parser Bool := accept (.keyword text)

def expect (k : TokenKind) : Parser Unit := do
  unless ← accept k do failure

def op (text : String) : Parser Unit := expect (.op text)

def keyword (text : String) : Parser Unit := expect (.keyword text)

/-- The name that a word of the source stands for. -/
def identifier (word : String) : String := String.ofList (Text.normalize word.toList)

def name : Parser String := do
  match (← take).kind with
  | .name word => return identifier word
  | _ => failure

def isName : Parser Bool := do
  match ← kind? with
  | some (.name _) => return true
  | _ => return false

def anyOp (ops : List String) : Parser (Option String) := do
  match ← kind? with
  | some (.op s) =>
    if ops.contains s then
      let _ ← take
      return some s
    else return none
  | _ => return none

/-- A node from `start` to the last token taken. -/
def node (label : Label) (start : Span) (children : List Tree) : Parser Tree := fun s =>
  some (.node label .root ⟨start.line, start.column, s.lastLine⟩ children, s)

def guardThat (b : Bool) : Parser Unit := if b then pure () else failure

def lift (x : Option α) : Parser α := fun s => x.map (·, s)

/-- Repeats a parser as long as `more` allows it. Every round takes a token, so the number of
tokens bounds the rounds. -/
def repeatWhile (more : Parser Bool) (p : Parser α) : Parser (List α) := fun s =>
  go s.tokens.length s
where
  /-- At most `n` rounds. -/
  go : Nat → Parser (List α)
    | 0 => do
      if ← more then failure else return []
    | n + 1 => do
      if ← more then
        let x ← p
        let xs ← go n
        return x :: xs
      else return []

/-- Items with commas between them, up to a place where `stop` holds; a comma may come last.
Gives the items and whether a comma came last. -/
def commaList (stop : Parser Bool) (p : Parser α) : Parser (List α × Bool) := do
  let first ← p
  let more : Parser Bool := do
    if ← isOp "," then
      fun s => match (do let _ ← take; stop : Parser Bool) s with
        | some (b, _) => some (!b, s)
        | none => none
    else return false
  let rest ← repeatWhile more do
    op ","
    p
  let trailing ← acceptOp ","
  return (first :: rest, trailing)

/-- Items with commas between them up to a closing bracket, which is not taken. -/
def itemsUpTo (close : String) (p : Parser α) : Parser (List α) := do
  if ← isOp close then return []
  else
    let (items, _) ← commaList (isOp close) p
    return items

/-- A comma and the items after it up to a closing bracket, if the comma comes next. -/
def moreItems (close : String) (p : Parser α) : Parser (List α) := do
  if ← acceptOp "," then itemsUpTo close p else return []

def optionally (cond : Parser Bool) (p : Parser Tree) : Parser (List Tree) := do
  if ← cond then
    let t ← p
    return [t]
  else return []

/-- One item that no comma follows, or several items. -/
def oneOr (items : List Tree × Bool) (one : Tree → Parser Tree)
    (several : List Tree → Parser Tree) : Parser Tree :=
  match items with
  | ([t], false) => one t
  | (ts, _) => several ts

end Parser

end Restyle.Syntax

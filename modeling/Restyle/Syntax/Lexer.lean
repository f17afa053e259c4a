import Restyle.Syntax.Numeral
import Restyle.Text.Utf8

/-!
Source code as tokens. Indentation is made explicit, and line ends count only outside brackets.
There is one answer for every way in which a text is no source code: `none`.
-/

namespace Restyle.Syntax

open Text

structure Cursor where
  rest : List Char
  line : Nat
  column : Nat

namespace Cursor

def next (c : Cursor) : Cursor :=
  match c.rest with
  | [] => c
  | a :: rest =>
    if a = '\n' then ⟨rest, c.line + 1, 0⟩ else ⟨rest, c.line, c.column + a.utf8Size⟩

def skip (c : Cursor) : Nat → Cursor
  | 0 => c
  | n + 1 => c.next.skip n

def skipTo (c : Cursor) (rest : List Char) : Cursor := c.skip (c.rest.length - rest.length)

end Cursor

/-- The width of a line's indentation, with tabs to the next multiple of eight and, for
comparison, with tabs as single blanks. -/
structure Width where
  tabbed : Nat
  plain : Nat
deriving DecidableEq, Repr

structure LexState where
  cursor : Cursor
  /-- The open indentations, the innermost first. -/
  indents : List Width
  /-- The open brackets, the innermost first. -/
  brackets : List Char
  atLineStart : Bool
  /-- Whether the line has no token so far and has none to come. -/
  isBlankLine : Bool
  /-- The tokens found, the last one first. -/
  done : List Token

namespace LexState

def maxIndents : Nat := 100

def maxBrackets : Nat := 200

/-- A backslash that joins the next line to this one: the rest after the line end, which must not
be the end of the text. -/
def joinedLine? : List Char → Option (List Char)
  | '\n' :: c :: rest => some (c :: rest)
  | _ => none

/-- Measures the blanks at the start of a line. `joined` is the width before the first backslash
that joins lines, which then decides. -/
def measure (width : Width) (joined : Nat) : List Char → Option (Width × Nat × List Char)
  | ' ' :: rest => measure ⟨width.tabbed + 1, width.plain + 1⟩ joined rest
  | '\t' :: rest => measure ⟨(width.tabbed / 8 + 1) * 8, width.plain + 1⟩ joined rest
  | '\x0c' :: rest => measure ⟨0, 0⟩ joined rest
  | '\\' :: '\n' :: c :: rest =>
    measure width (if joined = 0 then width.tabbed else joined) (c :: rest)
  | '\\' :: _ => none
  | rest => some (width, joined, rest)

def closeIndents (w : Width) : List Width → Nat × List Width
  | [] => (0, [])
  | top :: below =>
    if w.tabbed < top.tabbed then
      let (n, rest) := closeIndents w below
      (n + 1, rest)
    else (0, top :: below)

/-- The indentation tokens before a line of width `w`: how many blocks close, whether one opens,
and the open indentations afterwards. -/
def indentation (w : Width) (indents : List Width) : Option (Nat × Bool × List Width) :=
  let top := indents.head?.getD ⟨0, 0⟩
  if w.tabbed = top.tabbed then
    if w.plain = top.plain then some (0, false, indents) else none
  else if w.tabbed > top.tabbed then
    if indents.length ≥ maxIndents ∨ w.plain ≤ top.plain then none
    else some (0, true, w :: indents)
  else
    let (n, rest) := closeIndents w indents
    let top := rest.head?.getD ⟨0, 0⟩
    if w = top then some (n, false, rest) else none

def layoutToken (kind : TokenKind) (c : Cursor) : Token := ⟨kind, ⟨c.line, c.column, c.line⟩⟩

def startLine (s : LexState) : Option LexState :=
  match measure ⟨0, 0⟩ 0 s.cursor.rest with
  | none => none
  | some (width, joined, rest) =>
    let cursor := s.cursor.skipTo rest
    let blank := rest.head? = some '#' ∨ rest.head? = some '\n'
    let s := { s with cursor, atLineStart := false, isBlankLine := blank }
    if blank ∨ !s.brackets.isEmpty then some s
    else
      let width := if joined = 0 then width else ⟨joined, joined⟩
      match indentation width s.indents with
      | none => none
      | some (closed, opened, indents) =>
        let tokens := List.replicate closed (layoutToken .dedent cursor) ++
          (if opened then [layoutToken .indent cursor] else [])
        some { s with indents, done := tokens ++ s.done }

def push (s : LexState) (kind : TokenKind) (rest : List Char) : LexState :=
  let after := s.cursor.skipTo rest
  let token := ⟨kind, ⟨s.cursor.line, s.cursor.column, after.line⟩⟩
  { s with cursor := after, done := token :: s.done }

/-! ### Names and strings -/

def stringMarks : List String := ["b", "u", "r", "f", "br", "rb", "fr", "rf"]

def stringBody (quote : Char) (triple : Bool) (done : List Char) :
    List Char → Option (List Char × List Char)
  | [] => none
  | '\\' :: c :: rest => stringBody quote triple (c :: '\\' :: done) rest
  | ['\\'] => none
  | c :: rest =>
    if c = quote then
      if !triple then some (done.reverse, rest)
      else if rest.take 2 = [quote, quote] then some (done.reverse, rest.drop 2)
      else stringBody quote triple (c :: done) rest
    else if c = '\n' ∧ !triple then none
    else stringBody quote triple (c :: done) rest

/-- Whether a string has triple quotes, and what follows its opening quotes. The first of them is
already taken. -/
def openString (quote : Char) (s : List Char) : Bool × List Char :=
  if s.take 2 = [quote, quote] then (true, s.drop 2) else (false, s)

/-- A literal with its mark and its body, which starts at the cursor. -/
def literal (mark body : List Char) (start : Cursor) : StringToken :=
  let marks := mark.map Char.toLower
  ⟨marks.contains 'b', marks.contains 'r', marks.contains 'f', body, start.line, start.column⟩

def stringToken (s : LexState) (mark : List Char) (quote : Char) : Option LexState :=
  let opened := openString quote ((s.cursor.rest.drop mark.length).drop 1)
  (stringBody quote opened.1 [] opened.2).map fun r =>
    s.push (.string (literal mark r.1 (s.cursor.skipTo opened.2))) r.2

def isQuote (c : Char) : Bool := c == '"' || c == singleQuote

def wordToken (s : LexState) : Option LexState :=
  let word := s.cursor.rest.takeWhile mayBeNameChar
  let rest := s.cursor.rest.drop word.length
  let quote := rest.head?.filter isQuote
  match quote with
  | some q =>
    if stringMarks.contains (String.ofList (word.map Char.toLower)) then s.stringToken word q
    else plain word rest
  | none => plain word rest
where
  /-- A word that is no mark of a string. -/
  plain (word rest : List Char) : Option LexState :=
    if isKeyword (String.ofList word) then some (s.push (.keyword (String.ofList word)) rest)
    else if isIdentifier word then some (s.push (.name (String.ofList word)) rest)
    else none

/-! ### Operators and brackets -/

/-- Longer operators come before their beginnings. -/
def operators : List (List Char) :=
  ["**=", "//=", ">>=", "<<=", "...", "!=", "%=", "&=", "**", "*=", "+=", "-=", "->", "//", "/=",
   ":=", "<<", "<=", "==", ">=", ">>", "@=", "^=", "|=", "%", "&", "(", ")", "*", "+", ",", "-",
   ".", "/", ":", ";", "<", "=", ">", "@", "[", "]", "^", "\x7b", "|", "\x7d", "~"].map
    String.toList

def closing (c : Char) : Char := if c = '(' then ')' else if c = '[' then ']' else '}'

/-- The open brackets after an operator, if it can stand here. -/
def bracketsAfter (op brackets : List Char) : Option (List Char) :=
  match op with
  | [c] =>
    if c = '(' ∨ c = '[' ∨ c = '{' then
      if brackets.length ≥ maxBrackets then none else some (c :: brackets)
    else if c = ')' ∨ c = ']' ∨ c = '}' then
      match brackets with
      | top :: below => if closing top = c then some below else none
      | [] => none
    else some brackets
  | _ => some brackets

def operatorToken (s : LexState) : Option LexState :=
  match operators.find? (·.isPrefixOf s.cursor.rest) with
  | none => none
  | some op =>
    (bracketsAfter op s.brackets).map fun brackets =>
      { s.push (.op (String.ofList op)) (s.cursor.rest.drop op.length) with brackets }

/-! ### Steps -/

/-- Takes a line end. It is a token if the line has tokens and no bracket is open. -/
def endLine (s : LexState) : LexState :=
  let after := { s with cursor := s.cursor.next, atLineStart := true }
  if s.isBlankLine ∨ !s.brackets.isEmpty then after
  else { after with done := layoutToken .newline s.cursor :: s.done }

def inLine (s : LexState) : Option LexState :=
  match s.cursor.rest with
  | [] => some s
  | c :: rest =>
    if c = ' ' ∨ c = '\t' ∨ c = '\x0c' then some { s with cursor := s.cursor.next }
    else if c = '#' then
      some { s with cursor := s.cursor.skipTo (rest.dropWhile (· != '\n')) }
    else if c = '\n' then some s.endLine
    else if c = '\\' then
      (joinedLine? rest).map fun rest => { s with cursor := s.cursor.skipTo rest }
    else if isQuote c then s.stringToken [] c
    else if c.isDigit then
      (number? s.cursor.rest).map fun r => s.push (numberKind r.1 r.2) r.2
    else if c = '.' ∧ (rest.head?.map Char.isDigit).getD false then
      (fractionEnd rest).map fun r => s.push (numberKind r.1 r.2) r.2
    else if mayBeNameChar c then s.wordToken
    else s.operatorToken
where
  /-- The token of a number that ends before `rest`. -/
  numberKind (kind : NumberKind) (rest : List Char) : TokenKind :=
    .number kind (String.ofList (s.cursor.rest.take (s.cursor.rest.length - rest.length)))

def step (s : LexState) : Option LexState := if s.atLineStart then s.startLine else s.inLine

/-- Steps until the text is used up. A step uses a character, or starts a line. -/
def run : Nat → LexState → Option LexState
  | 0, _ => none
  | fuel + 1, s =>
    if s.cursor.rest.isEmpty ∧ !s.atLineStart then some s
    else match s.step with
      | some s' => run fuel s'
      | none => none

def start (line column : Nat) (text : List Char) : LexState :=
  ⟨⟨text, line, column⟩, [⟨0, 0⟩], [], true, false, []⟩

end LexState

/-- Line ends of all kinds become newlines, and the last line is ended. -/
def prepare (source : List Char) : List Char :=
  let s := unifyNewlines source
  if s.getLast? = some '\n' then s else s ++ ['\n']

def tokensAt (line column : Nat) (text : List Char) : Option (List Token) :=
  match (LexState.start line column text).run (2 * text.length + 4) with
  | some s => if s.brackets.isEmpty then some s.done.reverse else none
  | none => none

def tokens (source : List Char) : Option (List Token) :=
  if source.any (·.toNat == 0) then none else tokensAt 1 0 (prepare source)

end Restyle.Syntax

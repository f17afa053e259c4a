import Restyle.Syntax.Lexer
import Restyle.Text.Search

/-!
What string literals mean: escapes, and the parts of format strings.
-/

namespace Restyle

/-- What a reader of sources takes from outside: the characters that escapes call by their names,
and the words about a text that is no source, which are not those about a file that is missing or
cannot be decoded. -/
class Dialect where
  named? : List Char → Option Char
  complaint : List Char → String
  complaint_apart : ∀ text, Text.occursIn "not found".toList (complaint text).toList = false ∧
    Text.occursIn "encoding".toList (complaint text).toList = false

namespace Syntax

open Text

/-! ### Escapes -/

def simpleEscape? (c : Char) : Option Char :=
  if c = '\\' ∨ c = '"' ∨ c = singleQuote then some c
  else if c = 'a' then some (Char.ofNat 7)
  else if c = 'b' then some (Char.ofNat 8)
  else if c = 'f' then some (Char.ofNat 12)
  else if c = 'n' then some '\n'
  else if c = 'r' then some '\r'
  else if c = 't' then some '\t'
  else if c = 'v' then some (Char.ofNat 11)
  else none

def hexEscape? (count : Nat) (s : List Char) : Option Nat :=
  let digits := s.take count
  if digits.length = count ∧ digits.all isHex then some (hexValue digits) else none

def octalValue (digits : List Char) : Nat := digits.foldl (fun n d => 8 * n + (d.toNat - 48)) 0

/-- What an escape after its backslash stands for, and how many characters it takes. An escape
that is not known stands for itself, and so does a backslash before a field. A half of a surrogate
pair is no character and becomes the null character, which no source contains either. -/
def escape? [Dialect] (isBytes : Bool) (s : List Char) : Option (List Char × Nat) :=
  match s with
  | [] => some (['\\'], 0)
  | c :: rest =>
    if c = '\n' then some ([], 1)
    else match simpleEscape? c with
      | some d => some ([d], 1)
      | none =>
        if isOctal c then
          let digits := (s.take 3).takeWhile isOctal
          let n := octalValue digits
          some ([Char.ofNat (if isBytes then n % 256 else n)], digits.length)
        else if c = 'x' then (hexEscape? 2 rest).map fun n => ([Char.ofNat n], 3)
        else if isBytes then some (['\\', c], 1)
        else if c = 'u' then (hexEscape? 4 rest).map fun n => ([Char.ofNat n], 5)
        else if c = 'U' then
          match hexEscape? 8 rest with
          | some n => if n > 0x10ffff then none else some ([Char.ofNat n], 9)
          | none => none
        else if c = 'N' then
          match rest with
          | '{' :: named =>
            let name := named.takeWhile (· != '}')
            if name.isEmpty ∨ name.length = named.length then none
            else (Dialect.named? name).map fun c => ([c], name.length + 3)
          | _ => none
        else some (['\\', c], 1)

/-- Reads the escapes of a text; `skip` characters of an escape are still to be passed over. -/
def unescapeFrom [Dialect] (isBytes : Bool) (skip : Nat) : List Char → Option (List Char)
  | [] => some []
  | c :: rest =>
    match skip with
    | n + 1 => unescapeFrom isBytes n rest
    | 0 =>
      if c = '\\' then
        match escape? isBytes rest with
        | some (chars, n) => (unescapeFrom isBytes n rest).map (chars ++ ·)
        | none => none
      else (unescapeFrom isBytes 0 rest).map (c :: ·)

def unescape [Dialect] (isBytes isRaw : Bool) (s : List Char) : Option (List Char) :=
  if isRaw then some s else unescapeFrom isBytes 0 s

/-! ### Format strings -/

inductive FormatPart where
  | text (s : List Char)
  /-- The source of an expression and where it starts. -/
  | field (source : List Char) (line column : Nat) (conversion : Option Char)
      (spec : Option (List FormatPart))
deriving Repr

/-- Text up to the next brace that starts or ends a field: the text, whether a doubled brace ended
it, and what follows. Only the outermost level knows doubled braces, and there a single closing
brace is no text. The first `skip` characters are text in any case. -/
def fieldText (isRaw outermost : Bool) (skip : Nat) (done : List Char) :
    List Char → Option (List Char × Bool × List Char)
  | [] => some (done.reverse, false, [])
  | c :: rest =>
    match skip with
    | n + 1 => fieldText isRaw outermost n (c :: done) rest
    | 0 =>
      if c = '\\' ∧ !isRaw then
        match rest with
        | 'N' :: '{' :: named =>
          -- a named character: its braces are no field
          fieldText isRaw outermost ((named.takeWhile (· != '}')).length + 3) (c :: done) rest
        | d :: _ =>
          fieldText isRaw outermost (if d = '{' ∨ d = '}' then 0 else 1) (c :: done) rest
        | [] => some ((c :: done).reverse, false, [])
      else if c = '{' ∨ c = '}' then
        if !outermost then some (done.reverse, false, c :: rest)
        else if rest.head? = some c then some ((c :: done).reverse, true, rest.tail)
        else if c = '}' then none
        else some (done.reverse, false, c :: rest)
      else fieldText isRaw outermost 0 (c :: done) rest

def isOpening (c : Char) : Bool := c == '(' || c == '[' || c == '{'

def isClosing (c : Char) : Bool := c == ')' || c == ']' || c == '}'

/-- The source of a field up to the mark that ends it outside of quotes and brackets. Backslashes
and comments are not allowed in it. The first `skip` characters are not looked at. -/
def fieldSource (skip : Nat) (quote : Option (Char × Bool)) (opened : List Char)
    (done : List Char) : List Char → Option (List Char × List Char)
  | [] => none
  | c :: rest =>
    match skip with
    | n + 1 => fieldSource n quote opened (c :: done) rest
    | 0 =>
      if c = '\\' then none
      else match quote with
        | some (q, triple) =>
          if c ≠ q then fieldSource 0 quote opened (c :: done) rest
          else if !triple then fieldSource 0 none opened (c :: done) rest
          else if rest.take 2 = [q, q] then fieldSource 2 none opened (c :: done) rest
          else fieldSource 0 quote opened (c :: done) rest
        | none =>
          if LexState.isQuote c then
            if rest.take 2 = [c, c] then fieldSource 2 (some (c, true)) opened (c :: done) rest
            else fieldSource 0 (some (c, false)) opened (c :: done) rest
          else if isOpening c then
            if opened.length ≥ LexState.maxBrackets then none
            else fieldSource 0 none (c :: opened) (c :: done) rest
          else if c = '#' then none
          else if opened.isEmpty ∧ ['!', ':', '}', '=', '<', '>'].contains c then
            if rest.head? = some '=' ∧ c ≠ ':' ∧ c ≠ '}' then
              fieldSource 1 none opened (c :: done) rest
            else if c = '<' ∨ c = '>' then fieldSource 0 none opened (c :: done) rest
            else some (done.reverse, c :: rest)
          else if isClosing c then
            match opened with
            | top :: below =>
              if LexState.closing top = c then fieldSource 0 none below (c :: done) rest else none
            | [] => none
          else fieldSource 0 none opened (c :: done) rest

def isAsciiBlank (c : Char) : Bool :=
  c == ' ' || c == '\t' || c == '\n' || c == '\r' || c == '\x0c' || c == '\x0b'

/-- The mark that shows the source of a field: the shown text and the cursor after it. -/
def shownSource (source : List Char) (c : Cursor) : List Char × Cursor :=
  match c.rest with
  | '=' :: rest =>
    let blanks := rest.takeWhile isAsciiBlank
    (source ++ '=' :: blanks, c.skip (blanks.length + 1))
  | _ => ([], c)

def fieldConversion (c : Cursor) : Option (Option Char × Cursor) :=
  match c.rest with
  | '!' :: k :: _ => if k = 's' ∨ k = 'r' ∨ k = 'a' then some (some k, c.skip 2) else none
  | '!' :: [] => none
  | _ => some (none, c)

def fieldSpec (parts : Cursor → Option (List FormatPart × Cursor)) (c : Cursor) :
    Option (Option (List FormatPart) × Cursor) :=
  match c.rest with
  | ':' :: _ :: _ => (parts c.next).map fun r => (some r.1, r.2)
  | _ => some (none, c)

/-- A field from behind its opening brace to its closing brace: the text that shows its source, the
field, and the cursor before the closing brace. A field that is shown is converted in any case. -/
def formatField (parts : Cursor → Option (List FormatPart × Cursor)) (start : Cursor) :
    Option (List Char × FormatPart × Cursor) := do
  let (source, rest) ← fieldSource 0 none [] [] start.rest
  if source.all isAsciiBlank then none
  else
    let shown := shownSource source (start.skipTo rest)
    let (conversion, c) ← fieldConversion shown.2
    let (spec, c) ← fieldSpec parts c
    let conversion :=
      if shown.1.isEmpty ∨ conversion.isSome ∨ spec.isSome then conversion else some 'r'
    if c.rest.head? = some '}' then
      return (shown.1, .field source start.line start.column conversion spec, c)
    else none

/-- Fields stand in a format string and in the formats of its fields, and no deeper. -/
def maxFieldLevel : Nat := 2

/-- The parts from the cursor to the end, or to the brace that ends a field. -/
def formatPartsFrom [Dialect] (isRaw : Bool) (fuel level : Nat) (c : Cursor) :
    Option (List FormatPart × Cursor) :=
  match fuel with
  | 0 => none
  | fuel + 1 => do
    let (chars, doubled, rest) ← fieldText isRaw (level == 0) 0 [] c.rest
    let chars ← unescape false isRaw chars
    let c := c.skipTo rest
    if doubled then
      let (parts, c) ← formatPartsFrom isRaw fuel level c
      return (.text chars :: parts, c)
    else if rest.isEmpty ∨ rest.head? = some '}' then return ([.text chars], c)
    else if level ≥ maxFieldLevel then none
    else
      let (shown, field, c) ← formatField (formatPartsFrom isRaw fuel (level + 1)) c.next
      let (parts, after) ← formatPartsFrom isRaw fuel level c.next
      return (.text chars :: .text shown :: field :: parts, after)

def marks (s : List Char) : Nat := s.countP (!mayBeNameChar ·)

/-- The parts of a format string. Every part but the last one ends at a brace, so there are no more
of them than characters outside of words. -/
def formatParts [Dialect] (s : StringToken) : Option (List FormatPart) :=
  match formatPartsFrom s.isRaw (marks s.body + 2) 0 ⟨s.body, s.bodyLine, s.bodyColumn⟩ with
  | some (parts, c) => if c.rest.isEmpty then some parts else none
  | none => none

end Syntax

end Restyle

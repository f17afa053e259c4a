import Restyle.Json.Value

/-!
Reading JSON text. A fault names what was expected and where: the place is kept as a number of
characters and turned into line and column when it is shown.
-/

namespace Restyle.Json

inductive Fault where
  | byteOrderMark
  | expectedValue (place : Nat)
  | expectedName (place : Nat)
  | expectedColon (place : Nat)
  | expectedComma (place : Nat)
  | extraData (place : Nat)
  | unterminatedString (place : Nat)
  | controlCharacter (place : Nat)
  | badEscape (place : Nat)
  | badUnicodeEscape (place : Nat)
  | hugeInteger (digits : Nat)
deriving DecidableEq, Repr

structure Cursor where
  place : Nat
  rest : List Char

namespace Cursor

def next (c : Cursor) : Cursor := ⟨c.place + 1, c.rest.tail⟩

def skip (c : Cursor) (n : Nat) : Cursor := ⟨c.place + n, c.rest.drop n⟩

def isSpace (c : Char) : Bool := c == ' ' || c == '\t' || c == '\n' || c == '\r'

def skipSpace (c : Cursor) : Cursor := c.skip (c.rest.takeWhile isSpace).length

end Cursor

namespace Reader

def maxIntegerDigits : Nat := 4300

def unicodeEscape? (digits : List Char) : Option Nat :=
  if digits.length = 4 ∧ digits.all fun d => (Text.hexDigit? d).isSome then
    some (Text.hexValue digits)
  else none

def joinUnits (high low : Nat) : Char :=
  Char.ofNat (0x10000 + (high - 0xd800) * 0x400 + (low - 0xdc00))

def simpleEscape? : Char → Option Char
  | '"' => some '"'
  | '\\' => some '\\'
  | '/' => some '/'
  | 'b' => some '\x08'
  | 'f' => some '\x0c'
  | 'n' => some '\n'
  | 'r' => some '\r'
  | 't' => some '\t'
  | _ => none

/-- The rest of a string that began at `start`, from the cursor on. A lone half of a pair is no
character and becomes the null character, which no file name can have either. -/
def stringFrom (start : Nat) (done : List Char) (place : Nat) :
    List Char → Except Fault (String × Cursor)
  | [] => .error (.unterminatedString start)
  | '"' :: rest => .ok (String.ofList done.reverse, ⟨place + 1, rest⟩)
  | '\\' :: [] => .error (.unterminatedString start)
  | '\\' :: 'u' :: a :: b :: c :: d :: '\\' :: 'u' :: e :: f :: g :: h :: rest =>
    match unicodeEscape? [a, b, c, d] with
    | none => .error (.badUnicodeEscape (place + 1))
    | some high =>
      if 0xd800 ≤ high ∧ high < 0xdc00 ∧ rest ≠ [] then
        match unicodeEscape? [e, f, g, h] with
        | none => .error (.badUnicodeEscape (place + 7))
        | some low =>
          if 0xdc00 ≤ low ∧ low < 0xe000 then
            stringFrom start (joinUnits high low :: done) (place + 12) rest
          else stringFrom start (Char.ofNat high :: done) (place + 6)
            ('\\' :: 'u' :: e :: f :: g :: h :: rest)
      else stringFrom start (Char.ofNat high :: done) (place + 6)
        ('\\' :: 'u' :: e :: f :: g :: h :: rest)
  | '\\' :: 'u' :: a :: b :: c :: d :: rest =>
    match unicodeEscape? [a, b, c, d] with
    | some n =>
      if rest.isEmpty then .error (.badUnicodeEscape (place + 1))
      else stringFrom start (Char.ofNat n :: done) (place + 6) rest
    | none => .error (.badUnicodeEscape (place + 1))
  | '\\' :: 'u' :: _ => .error (.badUnicodeEscape (place + 1))
  | '\\' :: e :: rest =>
    match simpleEscape? e with
    | some c => stringFrom start (c :: done) (place + 2) rest
    | none => .error (.badEscape place)
  | c :: rest =>
    if c.toNat < 32 then .error (.controlCharacter place)
    else stringFrom start (c :: done) (place + 1) rest
termination_by s => s.length

def digitsValue (digits : List Char) : Nat :=
  digits.foldl (fun n d => 10 * n + (d.toNat - '0'.toNat)) 0

def fraction (s : List Char) : List Char :=
  match s with
  | '.' :: rest => rest.takeWhile Char.isDigit
  | _ => []

def exponent? (s : List Char) : Option (Bool × List Char × Nat) :=
  match s with
  | e :: rest =>
    if e = 'e' ∨ e = 'E' then
      let (negative, digits, signs) := match rest with
        | '+' :: r => (false, r.takeWhile Char.isDigit, 1)
        | '-' :: r => (true, r.takeWhile Char.isDigit, 1)
        | r => (false, r.takeWhile Char.isDigit, 0)
      if digits.isEmpty then none else some (negative, digits, 1 + signs + digits.length)
    else none
  | [] => none

def number (start : Cursor) : Except Fault (Value × Cursor) :=
  let (negative, unsigned) := match start.rest with
    | '-' :: rest => (true, rest)
    | rest => (false, rest)
  let whole := match unsigned with
    | '0' :: _ => ['0']
    | s => s.takeWhile Char.isDigit
  if whole.isEmpty then .error (.expectedValue start.place)
  else
    let signLength := if negative then 1 else 0
    let afterWhole := unsigned.drop whole.length
    let frac := fraction afterWhole
    let fracLength := if frac.isEmpty then 0 else frac.length + 1
    let afterFrac := afterWhole.drop fracLength
    match exponent? afterFrac with
    | none =>
      let cursor := start.skip (signLength + whole.length + fracLength)
      if frac.isEmpty then
        if whole.length > maxIntegerDigits then .error (.hugeInteger whole.length)
        else
          let n : Int := digitsValue whole
          .ok (.int (if negative then -n else n), cursor)
      else .ok (.real (Binary64.ofDecimal negative (digitsValue (whole ++ frac))
        (-(frac.length : Int))), cursor)
    | some (small, digits, length) =>
      let e : Int := digitsValue digits
      let e := if small then -e else e
      .ok (.real (Binary64.ofDecimal negative (digitsValue (whole ++ frac))
          (e - (frac.length : Int))),
        start.skip (signLength + whole.length + fracLength + length))

def words : List (String × Value) :=
  [("null", .null), ("true", .bool true), ("false", .bool false), ("NaN", .real .nan),
   ("Infinity", .real (.infinity false)), ("-Infinity", .real (.infinity true))]

mutual

/-- One value at the cursor. Every bracket and every item is at most two steps of the reader, so
twice the length of the text bounds the depth of the calls. -/
def value (fuel : Nat) (c : Cursor) : Except Fault (Value × Cursor) :=
  match fuel with
  | 0 => .error (.expectedValue c.place)
  | fuel + 1 =>
    match c.rest with
    | '"' :: rest => do
      let (s, after) ← stringFrom c.place [] (c.place + 1) rest
      return (.str s, after)
    | '{' :: _ =>
      let inner := c.next.skipSpace
      match inner.rest with
      | '}' :: _ => .ok (.obj [], inner.next)
      | _ => members fuel [] inner
    | '[' :: _ =>
      let inner := c.next.skipSpace
      match inner.rest with
      | ']' :: _ => .ok (.arr [], inner.next)
      | _ => items fuel [] inner
    | s =>
      match words.find? fun w => w.1.toList.isPrefixOf s with
      | some (word, v) => .ok (v, c.skip word.length)
      | none => number c

def members (fuel : Nat) (done : List (String × Value)) (c : Cursor) :
    Except Fault (Value × Cursor) :=
  match fuel with
  | 0 => .error (.expectedName c.place)
  | fuel + 1 =>
    match c.rest with
    | '"' :: rest => do
      let (name, after) ← stringFrom c.place [] (c.place + 1) rest
      let colon := after.skipSpace
      match colon.rest with
      | ':' :: _ =>
        let (v, after) ← value fuel colon.next.skipSpace
        let done := Value.setMember name v done
        let sep := after.skipSpace
        match sep.rest with
        | '}' :: _ => return (.obj done, sep.next)
        | ',' :: _ => members fuel done sep.next.skipSpace
        | _ => throw (.expectedComma sep.place)
      | _ => throw (.expectedColon colon.place)
    | _ => .error (.expectedName c.place)

/-- Items of an array up to its bracket, the last item first. -/
def items (fuel : Nat) (done : List Value) (c : Cursor) : Except Fault (Value × Cursor) :=
  match fuel with
  | 0 => .error (.expectedValue c.place)
  | fuel + 1 => do
    let (v, after) ← value fuel c
    let sep := after.skipSpace
    match sep.rest with
    | ']' :: _ => return (.arr (v :: done).reverse, sep.next)
    | ',' :: _ => items fuel (v :: done) sep.next.skipSpace
    | _ => throw (.expectedComma sep.place)

end

end Reader

def parse (text : List Char) : Except Fault Value :=
  if text.head? = some (Char.ofNat 0xfeff) then .error .byteOrderMark
  else do
    let start : Cursor := ⟨0, text⟩
    let (v, after) ← Reader.value (2 * text.length + 2) start.skipSpace
    let stop := after.skipSpace
    if stop.rest.isEmpty then return v else throw (.extraData stop.place)

namespace Fault

/-- Line, column and character of a place. Lines and columns count from one. -/
def placeText (text : List Char) (place : Nat) : String :=
  let before := text.take place
  let line := before.count '\n' + 1
  let column := (before.reverse.takeWhile (· != '\n')).length + 1
  s!"line {line} column {column} (char {place})"

def message (text : List Char) : Fault → String
  | byteOrderMark => "Unexpected UTF-8 BOM (decode using utf-8-sig): " ++ placeText text 0
  | expectedValue p => "Expecting value: " ++ placeText text p
  | expectedName p => "Expecting property name enclosed in double quotes: " ++ placeText text p
  | expectedColon p => "Expecting ':' delimiter: " ++ placeText text p
  | expectedComma p => "Expecting ',' delimiter: " ++ placeText text p
  | extraData p => "Extra data: " ++ placeText text p
  | unterminatedString p => "Unterminated string starting at: " ++ placeText text p
  | controlCharacter p => "Invalid control character at: " ++ placeText text p
  | badEscape p => "Invalid \\escape: " ++ placeText text p
  | badUnicodeEscape p => "Invalid \\uXXXX escape: " ++ placeText text p
  | hugeInteger n =>
    s!"Exceeds the limit ({Reader.maxIntegerDigits} digits) for integer string conversion: " ++
      s!"value has {n} digits; use sys.set_int_max_str_digits() to increase the limit"

/-- Whether a fault lies in the form of the text, and not in the size of a number. -/
def isSyntactic : Fault → Bool
  | hugeInteger _ => false
  | _ => true

end Fault

end Restyle.Json

import Restyle.Syntax.Token

/-!
Numbers in source code.
-/

namespace Restyle.Syntax

open Text (mayBeNameChar)

def numberFollowers : List (List Char) :=
  ["and".toList, "else".toList, "for".toList, "if".toList, "in".toList, "is".toList, "or".toList,
   "not".toList]

def endsNumber (rest : List Char) : Bool :=
  match rest with
  | [] => true
  | c :: _ => !mayBeNameChar c || numberFollowers.any (·.isPrefixOf rest)

/-- Groups of digits with single underscores between them, at least one digit. Gives the rest. -/
def digitGroups (isDigit : Char → Bool) (s : List Char) : Option (List Char) :=
  match s with
  | [] => none
  | c :: rest => if isDigit c then more rest else none
where
  /-- What follows a digit. -/
  more : List Char → Option (List Char)
    | '_' :: c :: rest => if isDigit c then more rest else none
    | '_' :: [] => none
    | c :: rest => if isDigit c then more rest else some (c :: rest)
    | [] => some []

def isHex (c : Char) : Bool := c.isDigit || ('a' ≤ c && c ≤ 'f') || ('A' ≤ c && c ≤ 'F')

def isOctal (c : Char) : Bool := '0' ≤ c && c ≤ '7'

def isBinary (c : Char) : Bool := c == '0' || c == '1'

def skipUnderscore : List Char → List Char
  | '_' :: rest => rest
  | s => s

/-- Digits in another base after its mark. An underscore may follow the mark, and no other digits
may follow. -/
def radixDigits (isDigit : Char → Bool) (s : List Char) : Option (List Char) :=
  (digitGroups isDigit (skipUnderscore s)).filter (!·.head?.any Char.isDigit)

/-- An exponent, if there is one. `none` is a malformed one; a lone mark is left for a word. -/
def exponentPart (s : List Char) : Option (Bool × List Char) :=
  match s with
  | e :: rest =>
    if e == 'e' || e == 'E' then
      match rest with
      | sign :: digits =>
        if sign == '+' || sign == '-' then (digitGroups Char.isDigit digits).map (true, ·)
        else if sign.isDigit then (digitGroups Char.isDigit rest).map (true, ·)
        else some (false, s)
      | [] => some (false, s)
    else some (false, s)
  | [] => some (false, s)

def endNumber? (kind : NumberKind) (rest : List Char) : Option (NumberKind × List Char) :=
  if endsNumber rest then some (kind, rest) else none

def decimalEnd (isReal : Bool) (s : List Char) : Option (NumberKind × List Char) :=
  match exponentPart s with
  | none => none
  | some (hasExponent, rest) =>
    match rest with
    | c :: after =>
      if c == 'j' || c == 'J' then endNumber? .imaginary after
      else endNumber? (if isReal || hasExponent then .real else .integer) rest
    | [] => endNumber? (if isReal || hasExponent then .real else .integer) rest

def fractionEnd (s : List Char) : Option (NumberKind × List Char) :=
  match s with
  | c :: _ =>
    if c.isDigit then (digitGroups Char.isDigit s).bind (decimalEnd true) else decimalEnd true s
  | [] => decimalEnd true s

def maxDecimalDigits : Nat := 4300

def radix? (c : Char) : Option (Char → Bool) :=
  if c = 'x' ∨ c = 'X' then some isHex
  else if c = 'o' ∨ c = 'O' then some isOctal
  else if c = 'b' ∨ c = 'B' then some isBinary
  else none

/-- The rest of a number after the mark of its base. -/
def radixNumber? (isDigit : Char → Bool) (s : List Char) : Option (NumberKind × List Char) :=
  (radixDigits isDigit s).bind (endNumber? .integer)

/-- Whether digits with underscores are an integer. Only zero may start with a zero. -/
def isInteger (text : List Char) : Bool :=
  let digits := text.filter Char.isDigit
  digits.all (· == '0') || (text.head? != some '0' && digits.length ≤ maxDecimalDigits)

def decimalNumber? (s : List Char) : Option (NumberKind × List Char) :=
  match digitGroups Char.isDigit s with
  | none => none
  | some ('.' :: after) => fractionEnd after
  | some rest =>
    (decimalEnd false rest).filter fun (kind, rest) =>
      kind != .integer || isInteger (s.take (s.length - rest.length))

def number? (s : List Char) : Option (NumberKind × List Char) :=
  match s with
  | '0' :: c :: rest =>
    match radix? c with
    | some isDigit => radixNumber? isDigit rest
    | none => decimalNumber? s
  | _ => decimalNumber? s

end Restyle.Syntax

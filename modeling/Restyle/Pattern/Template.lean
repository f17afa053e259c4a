import Restyle.Pattern.Basic
import Restyle.Text.Decimal
import Restyle.Text.Identifier
import Restyle.Text.Quoted

/-!
Templates for replacements: text with escapes and with references to the groups of a match.
-/

namespace Restyle

namespace Template

inductive Piece where
  | text (s : List Char)
  | group (n : Nat)
deriving DecidableEq, Repr

inductive Cause where
  | endsInBackslash
  | badEscape (c : Char)
  | noSuchGroup (n : Nat)
  | missingOpen
  | missingName
  | unterminatedName
  | badName (name : List Char)
  | octalTooLarge (digits : List Char)
deriving DecidableEq, Repr

inductive Fault where
  | malformed (cause : Cause) (place : Nat)
  | unknownName (name : List Char)
deriving DecidableEq, Repr

def Cause.message : Cause → String
  | endsInBackslash => "bad escape (end of pattern)"
  | badEscape c => "bad escape \\" ++ String.ofList [c]
  | noSuchGroup n => s!"invalid group reference {n}"
  | missingOpen => "missing <"
  | missingName => "missing group name"
  | unterminatedName => "missing >, unterminated name"
  | badName name => s!"bad character in group name {Text.quoted (String.ofList name)}"
  | octalTooLarge digits =>
    "octal escape value \\" ++ String.ofList digits ++ " outside of range 0-0o377"

/-- The message for a fault in the template `s`. Line and column are told if there are lines. -/
def Fault.message (s : List Char) : Fault → String
  | unknownName name => s!"unknown group name {Text.quoted (String.ofList name)}"
  | malformed cause place =>
    let before := s.take place
    let line := before.count '\n' + 1
    let column := (before.reverse.takeWhile (· != '\n')).length + 1
    let lines := if s.contains '\n' then s!" (line {line}, column {column})" else ""
    s!"{cause.message} at position {place}{lines}"

inductive Unit where
  | plain (c : Char)
  | escaped (c : Char)
deriving DecidableEq, Repr

def Unit.chars : Unit → List Char
  | plain c => [c]
  | escaped c => ['\\', c]

/-- The units of a text, and whether a backslash is left over at its end. -/
def units : List Char → List Unit × Bool
  | '\\' :: c :: rest => let (us, b) := units rest; (.escaped c :: us, b)
  | ['\\'] => ([], true)
  | c :: rest => let (us, b) := units rest; (.plain c :: us, b)
  | [] => ([], false)

/-- A place in the units of a template. The backslash at the end is noticed as soon as it is the
next thing to come. -/
structure Reader where
  place : Nat
  rest : List Unit
  dangling : Bool

namespace Reader

/-- The length of the template, for the place of a backslash at its end. -/
def stop (r : Reader) : Nat := r.place + (r.rest.flatMap Unit.chars).length

def check (r : Reader) : Except Fault Reader :=
  if r.rest.isEmpty && r.dangling then .error (.malformed .endsInBackslash r.stop) else .ok r

def skip (r : Reader) : Except Fault Reader :=
  match r.rest with
  | [] => .ok r
  | u :: rest => check { r with place := r.place + u.chars.length, rest }

def plainIf (r : Reader) (p : Char → Bool) : Option Char :=
  match r.rest with
  | .plain c :: _ => if p c then some c else none
  | _ => none

end Reader

def isOctal (c : Char) : Bool := '0' ≤ c && c ≤ '7'

def octalValue (digits : List Char) : Nat := digits.foldl (fun n d => 8 * n + (d.toNat - 48)) 0

def decimalValue (digits : List Char) : Nat := digits.foldl (fun n d => 10 * n + (d.toNat - 48)) 0

def controlEscape? : Char → Option Char
  | 'a' => some (Char.ofNat 7)
  | 'b' => some (Char.ofNat 8)
  | 'f' => some (Char.ofNat 12)
  | 'n' => some '\n'
  | 'r' => some '\r'
  | 't' => some '\t'
  | 'v' => some (Char.ofNat 11)
  | '\\' => some '\\'
  | _ => none

/-- The values of digits with single underscores between them. -/
def digitsOf? : List Char → Option (List Nat)
  | [] => none
  | [c] => (Text.decimalDigit? c).map ([·])
  | c :: '_' :: rest => do return (← Text.decimalDigit? c) :: (← digitsOf? rest)
  | c :: rest => do return (← Text.decimalDigit? c) :: (← digitsOf? rest)

/-- A group's number as it may be written between angle brackets. -/
def groupNumber? (name : List Char) : Option Nat :=
  let s := Text.trim name
  let unsigned := match s with
    | '+' :: rest => rest
    | s => s
  match s with
  | '-' :: rest =>
    match digitsOf? rest with
    | some ds => if ds.all (· == 0) then some 0 else none
    | none => none
  | _ => (digitsOf? unsigned).map fun ds => ds.foldl (fun n d => 10 * n + d) 0

def groupName (r : Reader) (name : List Char) : Nat → Except Fault (List Char × Reader)
  | 0 => .error (.malformed .missingName r.place)
  | fuel + 1 =>
    match r.rest with
    | [] =>
      if name.isEmpty then .error (.malformed .missingName r.place)
      else .error (.malformed .unterminatedName (r.place - name.length))
    | u :: _ => do
      let r ← r.skip
      if u = .plain '>' then
        if name.isEmpty then throw (.malformed .missingName (r.place - 1)) else return (name, r)
      else groupName r (name ++ u.chars) fuel

def groupPiece (groups n place : Nat) : Except Fault Piece :=
  if n > groups then .error (.malformed (.noSuchGroup n) place) else .ok (.group n)

def namedGroup (groups : Nat) (r : Reader) : Except Fault (Piece × Reader) :=
  if r.rest.head? ≠ some (.plain '<') then .error (.malformed .missingOpen r.place)
  else do
    let r ← r.skip
    let (name, r) ← groupName r [] (r.rest.length + 1)
    let place := r.place - (name.length + 1)
    if Text.isIdentifier name then throw (.unknownName name)
    match groupNumber? name with
    | none => throw (.malformed (.badName name) place)
    | some n => return (← groupPiece groups n place, r)

def takeIf (r : Reader) (p : Char → Bool) : Except Fault (List Char × Reader) :=
  match r.plainIf p with
  | some c => do
    let r ← r.skip
    return ([c], r)
  | none => .ok ([], r)

/-- What an escape stands for. `start` is the place of its backslash. -/
def escapePiece (groups : Nat) (c : Char) (start : Nat) (r : Reader) :
    Except Fault (Piece × Reader) := do
  if c = 'g' then namedGroup groups r
  else if c = '0' then
    let (a, r) ← takeIf r isOctal
    let (b, r) ← if a.isEmpty then pure ([], r) else takeIf r isOctal
    return (.text [Char.ofNat (octalValue (a ++ b) % 256)], r)
  else if c.isDigit then
    let (a, r) ← takeIf r Char.isDigit
    let (b, r) ← if isOctal c && !a.isEmpty && a.all isOctal then takeIf r isOctal else pure ([], r)
    let digits := c :: a ++ b
    if b.isEmpty then return (← groupPiece groups (decimalValue digits) (start + 1), r)
    else if octalValue digits > 255 then throw (.malformed (.octalTooLarge digits) start)
    else return (.text [Char.ofNat (octalValue digits)], r)
  else match controlEscape? c with
    | some d => return (.text [d], r)
    | none =>
      if c.isAlpha then throw (.malformed (.badEscape c) start) else return (.text ['\\', c], r)

def piecesFrom (groups : Nat) : Nat → Reader → Except Fault (List Piece)
  | 0, _ => .ok []
  | fuel + 1, r =>
    match r.rest with
    | [] => .ok []
    | u :: _ => do
      let after ← r.skip
      match u with
      | .plain c => return .text [c] :: (← piecesFrom groups fuel after)
      | .escaped c =>
        let (piece, after) ← escapePiece groups c r.place after
        return piece :: (← piecesFrom groups fuel after)

end Template

abbrev Template := List Template.Piece

namespace Template

def parse (groups : Nat) (s : List Char) : Except Fault Template := do
  let (us, dangling) := units s
  let r ← Reader.check ⟨0, us, dangling⟩
  piecesFrom groups (us.length + 1) r

def expand (t : Template) (m : Pattern.Match) : List Char :=
  t.flatMap fun
    | .text s => s
    | .group n => m.group n

end Template

namespace Pattern

def replaceMatches (ms : List Match × List Char) (t : Template) : List Char :=
  ms.1.flatMap (fun m => m.skipped ++ t.expand m) ++ ms.2

def groupCount : Pattern → Nat
  | seq a b => a.groupCount + b.groupCount
  | alt a b => a.groupCount + b.groupCount
  | many a => a.groupCount
  | few a => a.groupCount
  | group _ a => a.groupCount + 1
  | ahead a => a.groupCount
  | _ => 0

def replaceAll (a : Pattern) (t s : List Char) : Except Template.Fault (List Char) := do
  let template ← Template.parse a.groupCount t
  return replaceMatches (a.allMatches s) template

def replaceFirst (a : Pattern) (t : List Char) (s : List Char) :
    Except Template.Fault (List Char) := do
  let template ← Template.parse a.groupCount t
  return replaceMatches (a.matchesUpTo 1 s) template

end Pattern

end Restyle

import Restyle.Text.Blank
import Restyle.Text.Letter

/-!
Patterns for texts. A pattern gives, at a place in a text, all places where it can end, the
preferred one first. Searching takes the first place from the left where there is an end.
-/

namespace Restyle

inductive CharClass where
  | exactly (c : Char)
  | blank
  | wordChar
  | other (c : Char)
  /-- Every character but a newline. -/
  | inLine
deriving DecidableEq, Repr

def CharClass.holds : CharClass → Char → Bool
  | exactly c, d => d == c
  | blank, d => Text.isBlank d
  | wordChar, d => Text.isWordChar d
  | other c, d => d != c
  | inLine, d => d != '\n'

namespace CharClass

variable (c d : Char)

@[simp] theorem holds_exactly : (exactly c).holds d = (d == c) := rfl

@[simp] theorem holds_blank : blank.holds d = Text.isBlank d := rfl

@[simp] theorem holds_wordChar : wordChar.holds d = Text.isWordChar d := rfl

@[simp] theorem holds_other : (other c).holds d = (d != c) := rfl

@[simp] theorem holds_inLine : inLine.holds d = (d != '\n') := rfl

end CharClass

inductive Pattern where
  | nothing
  | char (c : CharClass)
  /-- A place between a word character and something else. -/
  | boundary
  /-- The start of the text or of a line. -/
  | lineStart
  | seq (a b : Pattern)
  | alt (a b : Pattern)
  /-- Any number of times, as often as possible. -/
  | many (p : Pattern)
  /-- Any number of times, as rarely as possible. -/
  | few (p : Pattern)
  /-- A part whose text is kept under a number. -/
  | group (n : Nat) (p : Pattern)
  /-- A part that has to follow and is not taken. -/
  | ahead (p : Pattern)
deriving DecidableEq, Repr

namespace Pattern

instance : HAdd Pattern Pattern Pattern := ⟨seq⟩

def literal (s : List Char) : Pattern :=
  s.foldr (fun c p => seq (char (.exactly c)) p) nothing

def word (s : List Char) : Pattern := boundary + literal s + boundary

def blanks : Pattern := many (char .blank)

def blanks1 : Pattern := char .blank + blanks

def wordChars : Pattern := char .wordChar + many (char .wordChar)

def optional (p : Pattern) : Pattern := alt p nothing

/-- A place in a text: what stands before it, backwards, and what follows. -/
structure Place where
  before : List Char
  rest : List Char
deriving DecidableEq, Repr

def isWord : Option Char → Bool
  | some c => Text.isWordChar c
  | none => false

def Place.isBoundary (p : Place) : Bool := isWord p.before.head? != isWord p.rest.head?

def Place.isLineStart (p : Place) : Bool :=
  match p.before with
  | [] => true
  | c :: _ => c == '\n'

def Place.upTo (p q : Place) : List Char := p.rest.take (p.rest.length - q.rest.length)

abbrev Groups := List (Nat × List Char)

/-- Repeats a step, at most `n` times, each time over some text. -/
def repeated (greedy : Bool) (step : Place → Groups → List (Place × Groups)) :
    Nat → Place → Groups → List (Place × Groups)
  | 0, p, g => [(p, g)]
  | n + 1, p, g =>
    let longer := ((step p g).filter fun (q, _) => q.rest.length < p.rest.length).flatMap
      fun (q, g) => repeated greedy step n q g
    if greedy then longer ++ [(p, g)] else (p, g) :: longer

/-- The ends of a pattern at a place, the preferred one first. -/
def ends : Pattern → Place → Groups → List (Place × Groups)
  | nothing, p, g => [(p, g)]
  | char c, p, g =>
    match p.rest with
    | d :: rest => if c.holds d then [(⟨d :: p.before, rest⟩, g)] else []
    | [] => []
  | boundary, p, g => if p.isBoundary then [(p, g)] else []
  | lineStart, p, g => if p.isLineStart then [(p, g)] else []
  | seq a b, p, g => (ends a p g).flatMap fun (q, g) => ends b q g
  | alt a b, p, g => ends a p g ++ ends b p g
  | many a, p, g => repeated true (ends a) p.rest.length p g
  | few a, p, g => repeated false (ends a) p.rest.length p g
  | group n a, p, g => (ends a p g).map fun (q, g) => (q, (n, p.upTo q) :: g)
  | ahead a, p, g => if (ends a p g).isEmpty then [] else [(p, g)]

/-- One match: the text that was passed over before it, its own text, and its groups. -/
structure Match where
  skipped : List Char
  text : List Char
  groups : Groups
deriving DecidableEq, Repr

/-- The match at a place, and the place after it. With `advance` it has to take some text. -/
def matchHere? (a : Pattern) (advance : Bool) (skipped : List Char) (here : Place) :
    Option (Match × Place) :=
  let found := (ends a here []).filter fun (q, _) => !advance || q.rest.length < here.rest.length
  found.head?.map fun (q, g) => (⟨skipped.reverse, here.upTo q, g⟩, q)

def search (a : Pattern) (advance : Bool) (before skipped : List Char) :
    List Char → Option (Match × Place)
  | [] => matchHere? a advance skipped ⟨before, []⟩
  | c :: rest =>
    match matchHere? a advance skipped ⟨before, c :: rest⟩ with
    | some found => some found
    | none => search a false (c :: before) (c :: skipped) rest

/-- The matches from a place on, one after the other, and the text after the last one. A match
without text is followed by one with text at the same place, or by a later one. -/
def matchesFrom (a : Pattern) : Nat → Bool → Place → List Match × List Char
  | 0, _, p => ([], p.rest)
  | n + 1, advance, p =>
    match search a advance p.before [] p.rest with
    | none => ([], p.rest)
    | some (m, q) =>
      let (ms, tail) := matchesFrom a n m.text.isEmpty q
      (m :: ms, tail)

def matchesUpTo (a : Pattern) (limit : Nat) (s : List Char) : List Match × List Char :=
  matchesFrom a limit false ⟨[], s⟩

/-- All matches in a text. No two of them start at the same place unless the first is empty. -/
def allMatches (a : Pattern) (s : List Char) : List Match × List Char :=
  matchesUpTo a (2 * s.length + 2) s

def find? (a : Pattern) (s : List Char) : Option Match := (search a false [] [] s).map (·.1)

def Match.group (m : Match) (n : Nat) : List Char :=
  if n = 0 then m.text else (m.groups.lookup n).getD []

end Pattern

end Restyle

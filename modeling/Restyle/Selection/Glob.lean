/-!
Patterns for file names. A star stands for any text, a question mark for one character, and
brackets for one character out of a set or, after an exclamation mark, outside of it.
-/

namespace Restyle.Selection

/-- A set of characters, given by ranges with both ends in them. -/
structure CharSet where
  negated : Bool
  ranges : List (Char × Char)
deriving DecidableEq, Repr

def CharSet.contains (s : CharSet) (c : Char) : Bool :=
  s.ranges.any (fun (a, b) => a ≤ c && c ≤ b) != s.negated

def CharSet.all : CharSet := ⟨true, []⟩

def CharSet.only (c : Char) : CharSet := ⟨false, [(c, c)]⟩

inductive Piece where
  | one (set : CharSet)
  | run
deriving DecidableEq, Repr

/-! ### Brackets -/

/-- What stands between brackets, cut at the hyphens that make ranges. A hyphen makes a range
unless it comes before `least` characters or at the end. -/
def chunks (least : Nat) (s : List Char) : List (List Char) :=
  let tail := s.drop least
  let more := tail.takeWhile (· != '-')
  match _h : tail.dropWhile (· != '-') with
  | [] => [s]
  | [_] => [s]
  | _ :: c :: rest => (s.take least ++ more) :: chunks 2 (c :: rest)
termination_by s.length
decreasing_by
  have h₁ : (tail.dropWhile (· != '-')).length ≤ tail.length :=
    (List.dropWhile_sublist _).length_le
  have h₂ : tail.length ≤ s.length := by simp [tail]
  rw [_h] at h₁
  simp at h₁ ⊢
  omega

/-- Joins the chunks on both sides of a range that is empty, without its ends. -/
def dropEmptyRanges (cs : List (List Char)) : List (List Char) :=
  cs.foldr (fun c done =>
    match c.getLast?, done with
    | some lo, (hi :: more) :: rest => if hi < lo then (c.dropLast ++ more) :: rest else c :: done
    | _, _ => c :: done) []

def rangesBetween : List (List Char) → List (Char × Char)
  | c :: d :: rest =>
    (match c.getLast?, d.head? with
      | some lo, some hi => [(lo, hi)]
      | _, _ => []) ++ rangesBetween (d :: rest)
  | _ => []

def bracketSet (s : List Char) : CharSet :=
  let cs := dropEmptyRanges (chunks (if s.head? = some '!' then 2 else 1) s)
  let (negated, cs) := match cs with
    | ('!' :: c) :: rest => (true, c :: rest)
    | cs => (false, cs)
  ⟨negated, cs.flatten.map (fun c => (c, c)) ++ rangesBetween cs⟩

/-- What stands between brackets, given the text after the opening one. A closing bracket at the
start is a member of the set. -/
def bracket? (s : List Char) : Option (List Char) :=
  let lead := if s.head? = some '!' then 1 else 0
  let lead := if (s.drop lead).head? = some ']' then lead + 1 else lead
  let inner := s.take lead ++ (s.drop lead).takeWhile (· != ']')
  if inner.length < s.length then some inner else none

/-! ### Patterns -/

/-- Reads a pattern, after `skip` characters that have been read already. -/
def piecesFrom (skip : Nat) : List Char → List Piece
  | [] => []
  | c :: rest =>
    match skip with
    | n + 1 => piecesFrom n rest
    | 0 =>
      if c = '*' then .run :: piecesFrom 0 rest
      else if c = '?' then .one .all :: piecesFrom 0 rest
      else if c = '[' then
        match bracket? rest with
        | some inner => .one (bracketSet inner) :: piecesFrom (inner.length + 1) rest
        | none => .one (.only c) :: piecesFrom 0 rest
      else .one (.only c) :: piecesFrom 0 rest

def pieces (pattern : List Char) : List Piece := piecesFrom 0 pattern

/-- Whether some end of a text, the whole text included, has a property. -/
def anyEnd (p : List Char → Bool) : List Char → Bool
  | [] => p []
  | c :: s => p (c :: s) || anyEnd p s

def fits : List Piece → List Char → Bool
  | [], s => s.isEmpty
  | .one set :: ps, s =>
    match s with
    | c :: rest => set.contains c && fits ps rest
    | [] => false
  | .run :: ps, s => anyEnd (fits ps) s

def globMatches (pattern s : String) : Bool := fits (pieces pattern.toList) s.toList

end Restyle.Selection

import Restyle.Text.Blank
import Restyle.Text.Case

/-!
The form of a docstring: its summary starts with a capital and ends with a period, and one that
has a single line stands without blanks around it.
-/

namespace Restyle.Docstring

open Text

def sectionHeaders : List (List Char) :=
  ["Args:", "Arguments:", "Parameters:", "Returns:", "Return:", "Yields:", "Yield:", "Raises:",
   "Except:", "Exceptions:", "Note:", "Notes:", "Example:", "Examples:", "See Also:",
   "References:", "Todo:", "Warning:", "Warnings:"].map String.toList

def isSectionHeader (line : List Char) : Bool :=
  let s := trim line
  sectionHeaders.any (·.isPrefixOf s)

def initialCapital : List Char → List Char
  | [] => []
  | c :: rest => if isLower [c] then upperChar c ++ rest else c :: rest

def sentence (s : List Char) : List Char :=
  let s := initialCapital s
  if s.isEmpty ∨ s.getLast? = some '.' then s else s ++ ['.']

def isBlankLine (line : List Char) : Bool := (trim line).isEmpty

def formatSingle (s : List Char) : List Char :=
  let content := trim s
  if content.isEmpty then s else sentence content

def joinLines (ls : List (List Char)) : List Char := List.intercalate ['\n'] ls

@[simp] theorem joinLines_singleton (l : List Char) : joinLines [l] = l := by
  simp [joinLines]

@[simp] theorem joinLines_cons_cons (l m : List Char) (ls : List (List Char)) :
    joinLines (l :: m :: ls) = l ++ '\n' :: joinLines (m :: ls) := by
  simp [joinLines, List.intercalate_cons_cons]

/-- The lines with the summary, the first line that is not blank, in form. A section header is no
summary. -/
def formatSummary : List (List Char) → List (List Char)
  | [] => []
  | line :: rest =>
    if isBlankLine line then line :: formatSummary rest
    else if isSectionHeader line then line :: rest
    else sentence (trim line) :: rest

def formatMulti (s : List Char) : List Char := joinLines (formatSummary (splitOn '\n' s))

def format (s : List Char) : List Char :=
  if isBlankLine s then s
  else if ((splitOn '\n' s).filter (!isBlankLine ·)).length ≤ 1 then formatSingle s
  else formatMulti s

/-! ### Descriptions -/

def endsInPeriod (s : List Char) : Bool := s.getLast? == some '.'

def changes (old new : List Char) : List String :=
  let before := trim old
  let after := trim new
  let capital := match before.head?, after.head? with
    | some a, some b => a != b && isLower [a] && isUpper [b]
    | _, _ => false
  let period := !before.isEmpty && !after.isEmpty && !endsInPeriod before && endsInPeriod after
  (if capital then ["capitalized first letter"] else []) ++
    (if period then ["added period"] else []) ++
    (if old != before then ["trimmed whitespace"] else [])

def describe (old new : List Char) (line : Int) : String :=
  match changes old new with
  | [] => s!"Formatted docstring at line {line}"
  | cs => s!"Formatted docstring at line {line}: " ++ String.intercalate " and " cs

end Restyle.Docstring

import Restyle.Config.Settings
import Restyle.Text.Blank

/-!
Blank lines after the first lines of classes and functions.
-/

namespace Restyle.Layout

open Text

inductive Opening where
  | classBody
  | functionBody
deriving DecidableEq, Repr

/-- A line that starts a definition, by its first word and its colon. -/
def opening? (line : List Char) : Option Opening :=
  let s := trim line
  let starts (word : String) : Bool := word.toList.isPrefixOf s
  if s.getLast? ≠ some ':' then none
  else if starts "class " then some .classBody
  else if starts "def " || starts "async def " then some .functionBody
  else none

structure NotACount where
deriving DecidableEq, Repr

def NotACount.message (_ : NotACount) : String :=
  "'float' object cannot be interpreted as an integer"

def blankLines : LineCount → Except NotACount (List (List Char))
  | .count n => .ok (List.replicate n [])
  | .fractional => .error {}

def spaced (afterClass afterFunction : LineCount) (line : List Char) :
    Except NotACount (List (List Char)) :=
  match opening? line with
  | some .classBody => (blankLines afterClass).map (line :: ·)
  | some .functionBody => (blankLines afterFunction).map (line :: ·)
  | none => .ok [line]

def addBlankLines (afterClass afterFunction : LineCount) (s : List Char) :
    Except NotACount (List Char) := do
  let lines ← (splitOn '\n' s).mapM (spaced afterClass afterFunction)
  return List.intercalate ['\n'] lines.flatten

/-- The text with blank lines added, if the rule is on and the text changes. -/
def apply (s : Settings) (source : List Char) : Except NotACount (Option (List Char)) :=
  if !s.blankLines then .ok none
  else do
    let text ← addBlankLines s.afterClass s.afterFunction source
    return if text = source then none else some text

end Restyle.Layout

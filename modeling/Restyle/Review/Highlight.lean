import Restyle.Diff.Edits
import Restyle.Pattern.Basic

/-!
Marks on two texts that are shown side by side: lines that are only in one of them, and words that
are only in one of two lines.
-/

namespace Restyle.Review

inductive Tag where
  | removedLine
  | addedLine
  | removedWord
  | addedWord
deriving DecidableEq, Repr

def Tag.name : Tag → String
  | removedLine => "removed_line"
  | addedLine => "added_line"
  | removedWord => "removed_word"
  | addedWord => "added_word"

/-- A mark in a line, from a column up to another one or up to the end. Lines are counted from
one, columns from zero. -/
structure Mark where
  tag : Tag
  line : Nat
  start : Nat
  stop : Option Nat
deriving DecidableEq, Repr

namespace Mark

def startText (m : Mark) : String := s!"{m.line}.{m.start}"

def stopText (m : Mark) : String :=
  match m.stop with
  | some n => s!"{m.line}.{n}"
  | none => s!"{m.line}.end"

end Mark

/-- A line of a text as it is shown. Only newlines end lines there, and a line past the end is
empty. -/
def shownLine (text : List Char) (index : Nat) : List Char :=
  (Text.splitOn '\n' text)[index]?.getD []

def lineWords (line : List Char) : List (List Char) :=
  ((Pattern.wordChars.allMatches line).1).map (·.text)

def isAlphanumericAt (c : Option Char) : Bool :=
  match c with
  | some c => Text.isAlphanumeric c
  | none => false

/-- The first column of a word in the rest of a line, which starts at `column`. -/
def find? (word : List Char) (column : Nat) : List Char → Option Nat
  | [] => if word.isEmpty then some column else none
  | c :: rest =>
    if word.isPrefixOf (c :: rest) then some column else find? word (column + 1) rest

def findFrom? (word line : List Char) (start : Nat) : Option Nat :=
  if start ≤ line.length then find? word start (line.drop start) else none

/-- Whether what is found at a column has no letter or digit on either side. -/
def standsAlone (word s : List Char) (column : Nat) : Bool :=
  (column == 0 || !isAlphanumericAt s[column - 1]?) && !isAlphanumericAt s[column + word.length]?

/-- Goes from one place of a word to the next one, and keeps the columns where it stands alone.
There is no answer if the rounds do not suffice. -/
def occurrences? (word line : List Char) : Nat → Nat → Option (List Nat)
  | 0, _ => none
  | rounds + 1, start =>
    match findFrom? word line start with
    | none => some []
    | some column => (occurrences? word line rounds (column + 1)).map fun columns =>
      if standsAlone word line column then column :: columns else columns

def wordMarks (tag : Tag) (shown : List Char) (index : Nat) (word : List Char) : List Mark :=
  let line := shownLine shown index
  ((occurrences? word line (line.length + 2) 0).getD []).map fun column =>
    ⟨tag, index + 1, column, some (column + word.length)⟩

def ownWords (line other : List Char) : List (List Char) :=
  (lineWords line).eraseDups.filter fun w => !(lineWords other).contains w

structure Marks where
  old : List Mark
  new : List Mark
deriving DecidableEq, Repr

instance : Append Marks := ⟨fun a b => ⟨a.old ++ b.old, a.new ++ b.new⟩⟩

def lineMark (tag : Tag) (index : Nat) : Mark := ⟨tag, index + 1, 0, none⟩

def span (start stop : Nat) : List Nat := (List.range (stop - start)).map (start + ·)

/-- The marks for one change of lines. In changed lines only words are marked. -/
def editMarks (old new : List Char) (oldLines newLines : List Diff.Line) (e : Diff.Edit) : Marks :=
  match e.kind with
  | .delete => ⟨(span e.oldStart e.oldStop).map (lineMark .removedLine), []⟩
  | .insert => ⟨[], (span e.newStart e.newStop).map (lineMark .addedLine)⟩
  | .replace =>
    let pairs := (span e.oldStart e.oldStop).zip (span e.newStart e.newStop)
    let marks := pairs.map fun (i, j) =>
      let a := oldLines[i]?.getD []
      let b := newLines[j]?.getD []
      Marks.mk ((ownWords a b).flatMap (wordMarks .removedWord old i))
        ((ownWords b a).flatMap (wordMarks .addedWord new j))
    ⟨marks.flatMap (·.old), marks.flatMap (·.new)⟩

def marks (old new : List Char) : Marks :=
  let oldLines := Text.lines old
  let newLines := Text.lines new
  let all := (Diff.edits oldLines newLines).map (editMarks old new oldLines newLines)
  ⟨all.flatMap (·.old), all.flatMap (·.new)⟩

end Restyle.Review

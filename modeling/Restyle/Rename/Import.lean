import Restyle.Rename.Words
import Restyle.Syntax.Parse
import Restyle.Text.Search

/-!
New names in import statements, line by line where the text is a source, and by its wording where
it is not.
-/

namespace Restyle.Rename

open Syntax

/-- A text after a change, with descriptions of what was changed. -/
abbrev Told := List Char × List String

structure Mention where
  isMember : Bool
  line : Nat
  name : String
  asName : Option String
deriving DecidableEq, Repr

/-- The names that a node imports. Those from a package given by dots alone are left out. -/
def mentionsAt (t : Tree) : List Mention :=
  let mention (isMember : Bool) (c : Tree) : Option Mention :=
    match c.label with
    | .importName name asName => some ⟨isMember, t.line, name, asName⟩
    | _ => none
  match t.label with
  | .importFrom (some _) _ => t.children.filterMap (mention true)
  | .importStmt => t.children.filterMap (mention false)
  | _ => []

def Mention.pattern (m : Mention) : Pattern :=
  match m.asName with
  | none => Pattern.word m.name.toList
  | some a =>
    Pattern.boundary + Pattern.literal m.name.toList + Pattern.blanks1 +
      Pattern.literal "as".toList + Pattern.blanks1 + Pattern.literal a.toList + Pattern.boundary

def Mention.replacement (m : Mention) (new : String) : List Char :=
  match m.asName with
  | none => new.toList
  | some a => s!"{new} as {a}".toList

def Mention.describe (m : Mention) (new : String) : String :=
  if m.isMember then s!"Updated import: {m.name} → {new}"
  else s!"Updated module import: {m.name} → {new}"

/-- Gives one mention its new name in the line of its statement. -/
def renameMention (names : NameMap) (state : List (List Char) × List String) (m : Mention) :
    Except TemplateFault (List (List Char) × List String) :=
  match names.get? m.name, state.1[m.line - 1]? with
  | some new, some line => do
    let changed ← replaceAll m.pattern (m.replacement new) line
    if changed = line then return state
    else return (state.1.set (m.line - 1) changed, state.2 ++ [m.describe new])
  | _, _ => .ok state

def importPattern (name : List Char) : Pattern :=
  let dotted := Pattern.wordChars +
    Pattern.many (Pattern.char (.exactly '.') + Pattern.wordChars)
  let start := Pattern.boundary + Pattern.literal "from".toList + Pattern.blanks1 + dotted +
    Pattern.blanks1 + Pattern.literal "import".toList + Pattern.blanks1 +
    Pattern.few (Pattern.char .inLine) + Pattern.boundary
  Pattern.group 1 start + Pattern.group 2 (Pattern.literal name) +
    Pattern.group 3 Pattern.boundary

/-- Gives one name another one wherever the text of a found import occurs. -/
def renameByWording (state : Told) (old new : String) : Told :=
  let found := (importPattern old.toList).allMatches state.1
  found.1.foldl (fun (s, told) m =>
    (Text.replace m.text (Text.replace old.toList new.toList m.text) s,
      told ++ [s!"Updated import (regex): {old} → {new}"])) state

def renameImportsByWording (names : NameMap) (s : List Char) : Told :=
  names.entries.foldl (fun state (old, new) => renameByWording state old new) (s, [])

/-- New names in the imports of a text. Its lines end in newlines afterwards. -/
def renameImports [Dialect] (names : NameMap) (s : List Char) : Except TemplateFault Told :=
  match parse? s with
  | none => .ok (renameImportsByWording names s)
  | some t => do
    let mentions := t.breadthFirst.flatMap mentionsAt
    let (lines, told) ← mentions.foldlM (renameMention names) (Text.lines s, [])
    return (List.intercalate ['\n'] lines, told)

end Restyle.Rename

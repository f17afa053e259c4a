import Restyle.Docstring.Format
import Restyle.Rename.Words
import Restyle.Syntax.Parse

/-!
Docstrings in source text. They are found in the syntax tree, and replaced in the text where their
content stands between triple quotes.
-/

namespace Restyle.Docstring

open Syntax

def doubleQuotes : List Char := "\"\"\"".toList

def singleQuotes : List Char := List.replicate 3 Text.singleQuote

def quotedPattern (quotes : List Char) (blanks : Bool) (content : List Char) : Pattern :=
  let q := Pattern.literal quotes
  let (start, stop) := if blanks then (q + Pattern.blanks, Pattern.blanks + q) else (q, q)
  Pattern.group 1 start + Pattern.literal content + Pattern.group 2 stop

def patterns (content : List Char) : List Pattern :=
  [quotedPattern doubleQuotes false content, quotedPattern singleQuotes false content,
   quotedPattern doubleQuotes true content, quotedPattern singleQuotes true content]

/-- The quotes stay, and between them stands the new content, which is read as a template. -/
def replacement (new : List Char) : List Char := "\\1".toList ++ new ++ "\\2".toList

/-- Replaces one docstring where it is found first. -/
def replaceContent (source old new : List Char) : Except Rename.TemplateFault (List Char) :=
  match (patterns old).find? fun p => (p.find? source).isSome with
  | none => .ok source
  | some p =>
    match p.replaceFirst (replacement new) source with
    | .ok s => .ok s
    | .error f => .error ⟨replacement new, f⟩

def firstText? (t : Tree) : Option (Nat × List Char) :=
  match (t.parts .body).head? with
  | some stmt =>
    match stmt.label, stmt.part? .value with
    | .exprStmt, some v =>
      match v.label with
      | .constant (.string s) => some (v.line, s.toList)
      | _ => none
    | _, _ => none
  | none => none

def hasDocstring : Label → Bool
  | .file => true
  | .functionDef _ _ => true
  | .classDef _ => true
  | _ => false

def all (t : Tree) : List (Nat × List Char) :=
  t.preorder.filterMap fun n => if hasDocstring n.label then firstText? n else none

def formatOne (state : List Char × List String) (doc : Nat × List Char) :
    Except Rename.TemplateFault (List Char × List String) :=
  let new := format doc.2
  if new = doc.2 then .ok state
  else do
    let source ← replaceContent state.1 doc.2 new
    return (source, state.2 ++ [describe doc.2 new doc.1])

/-- Formats all docstrings of a source. The result is the new text and a description of every
change, or nothing if the text stays the same or is no source. -/
def apply [Dialect] (source : List Char) :
    Except Rename.TemplateFault (Option (List Char × List String)) :=
  match parse? source with
  | none => .ok none
  | some t => do
    let (text, told) ← (all t).foldlM formatOne (source, [])
    return if text = source then none else some (text, told)

end Restyle.Docstring

import Restyle.Syntax.Grammar.Statement

/-!
From source text to syntax tree.
-/

namespace Restyle.Syntax

/-- How deep the rules can be nested for a token: a format string holds tokens of its own. A word
gives two of them at most, a number and a keyword, and two words have a character between them that
belongs to neither. -/
def Token.depth (t : Token) : Nat :=
  match t.kind with
  | .string s => if s.isFormat then 3 * marks s.body + 5 else 1
  | _ => 1

/-- The syntax tree of a source text, if it is one. Every rule takes a token before it comes back
to a rule through the record for the second time, so twice the depth of the tokens is deep
enough. -/
def parse? [Dialect] (source : List Char) : Option Tree :=
  match tokens source with
  | none => none
  | some toks =>
    let depth := (toks.map Token.depth).foldr (· + ·) 0
    match Grammar.file (Grammar.rules (2 * depth + 8)) ⟨toks, 1⟩ with
    | some (body, s) => some (.node .file .root ⟨0, 0, s.lastLine⟩ (Grammar.asBody body))
    | none => none

end Restyle.Syntax

import Restyle.Text.Identifier

/-!
Tokens of Python source code.
-/

namespace Restyle.Syntax

/-- The lines a piece of code covers, and where it starts. Lines count from one, columns are
bytes from zero. -/
structure Span where
  line : Nat
  column : Nat
  lastLine : Nat
deriving DecidableEq, Repr

inductive NumberKind where
  | integer
  | real
  | imaginary
deriving DecidableEq, Repr

structure StringToken where
  isBytes : Bool
  isRaw : Bool
  isFormat : Bool
  body : List Char
  /-- Where the body starts. -/
  bodyLine : Nat
  bodyColumn : Nat
deriving DecidableEq, Repr

inductive TokenKind where
  | name (word : String)
  | keyword (text : String)
  | number (kind : NumberKind) (text : String)
  | string (s : StringToken)
  | op (text : String)
  | newline
  | indent
  | dedent
deriving DecidableEq, Repr

structure Token where
  kind : TokenKind
  span : Span
deriving DecidableEq, Repr

def Token.isVisible (t : Token) : Bool :=
  match t.kind with
  | .newline => false
  | .indent => false
  | .dedent => false
  | _ => true

end Restyle.Syntax

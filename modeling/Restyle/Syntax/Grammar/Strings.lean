import Restyle.Syntax.Grammar.Rules
import Restyle.Syntax.Literal

/-!
String literals as trees.
-/

namespace Restyle.Syntax

open Restyle.Syntax.Parser

namespace Grammar

def fieldExpression (r : Rules) (source : List Char) (line column : Nat) : Option Tree :=
  match tokensAt line (column - 1) ('(' :: source ++ [')', '\n']) with
  | none => none
  | some toks =>
    match r.starExpressions ⟨toks, line⟩ with
    | some (t, s) => if s.tokens.all (!·.isVisible) then some t else none
    | none => none

mutual

/-- The parts of a format string as trees, with neighbouring texts joined; `pending` is the text
that is not yet a tree. -/
def partTrees (r : Rules) (span : Span) (pending : List Char) :
    List FormatPart → Option (List Tree)
  | [] => some (textTree span pending)
  | p :: ps =>
    match p with
    | .text s => partTrees r span (pending ++ s) ps
    | .field source line column conversion spec => do
      let value ← fieldExpression r source line column
      let format ← specTrees r span spec
      let rest ← partTrees r span [] ps
      return textTree span pending ++
        .node (.formattedValue conversion) .value span (value.as .value :: format) :: rest

def specTrees (r : Rules) (span : Span) : Option (List FormatPart) → Option (List Tree)
  | none => some []
  | some parts =>
    (partTrees r span [] parts).map fun ts => [.node .joinedStr .formatSpec span ts]

/-- A text as a constant; nothing for the empty text. -/
def textTree (span : Span) (s : List Char) : List Tree :=
  if s.isEmpty then [] else [.node (.constant (.string (String.ofList s))) .value span []]

end

def literalParts [Dialect] (s : StringToken) : Option (List FormatPart) :=
  if s.isFormat then formatParts s
  else (unescape s.isBytes s.isRaw s.body).map fun t => [.text t]

def plainText (parts : List FormatPart) : List Char :=
  parts.flatMap fun
    | .text s => s
    | .field .. => []

/-- Adjacent literals are one. Bytes stand only with bytes, and have only ASCII characters. -/
def joinLiterals [Dialect] (r : Rules) (span : Span) (literals : List StringToken) :
    Option Tree := do
  let parts ← literals.mapM literalParts
  let text := plainText parts.flatten
  if literals.all (·.isBytes) then
    if literals.any fun s => s.body.any (·.toNat ≥ 128) then none
    else some (.node (.constant (.bytes (String.ofList text))) .root span [])
  else if literals.any (·.isBytes) then none
  else if literals.any (·.isFormat) then
    (partTrees r span [] parts.flatten).map (.node .joinedStr .root span)
  else some (.node (.constant (.string (String.ofList text))) .root span [])

def isString : Parser Bool := do
  match ← kind? with
  | some (.string _) => return true
  | _ => return false

def stringLiteral : Parser StringToken := do
  match (← take).kind with
  | .string s => return s
  | _ => failure

def strings [Dialect] (r : Rules) : Parser Tree := do
  let start ← here
  let literals ← repeatWhile isString stringLiteral
  let s ← get
  lift (joinLiterals r ⟨start.line, start.column, s.lastLine⟩ literals)

end Grammar

end Restyle.Syntax

import Restyle.Text.Case
import Restyle.Naming.Convention

/-!
Conversion of names to a convention. Names are lists of characters here; `Convention.recase`
is the conversion of strings. A name with underscores has its words between them. In a name
without any, a word starts where the case of the ASCII letters changes.
-/

namespace Restyle.Naming

open Restyle.Text

def isSmall (c : Char) : Bool := 'a' ≤ c && c ≤ 'z'

def isCapital (c : Char) : Bool := 'A' ≤ c && c ≤ 'Z'

/-- Puts an underscore between a small letter or a digit and the capital after it. -/
def breakAfterSmall : List Char → List Char
  | a :: b :: rest =>
    if (isSmall a || a.isDigit) && isCapital b then a :: '_' :: breakAfterSmall (b :: rest)
    else a :: breakAfterSmall (b :: rest)
  | s => s

/-- Puts an underscore before the last capital of a run that a small letter follows. -/
def breakAcronym : List Char → List Char
  | a :: b :: c :: rest =>
    if isCapital a && isCapital b && isSmall c then a :: '_' :: breakAcronym (b :: c :: rest)
    else a :: breakAcronym (b :: c :: rest)
  | s => s

def snake (s : List Char) : List Char :=
  if s.contains '_' && isLower s then s else lower (breakAcronym (breakAfterSmall s))

def lowerWords (s : List Char) : List (List Char) := splitOn '_' (lower s)

def camel : List Char → List Char
  | [] => []
  | s@(c :: rest) =>
    if s.contains '_' then
      match lowerWords s with
      | [] => []
      | w :: ws => w ++ ws.flatMap capitalize
    else lowerChar c ++ rest

def pascal : List Char → List Char
  | [] => []
  | s@(c :: rest) =>
    if s.contains '_' then (lowerWords s).flatMap capitalize else upperChar c ++ rest

def upperSnake (s : List Char) : List Char :=
  if s.contains '_' then upper s else upper (snake s)

def trimUnderscoresLeft (s : List Char) : List Char := s.dropWhile (· == '_')

@[simp] theorem trimUnderscoresLeft_underscore (s : List Char) :
    trimUnderscoresLeft ('_' :: s) = trimUnderscoresLeft s := rfl

def trimUnderscores (s : List Char) : List Char :=
  ((trimUnderscoresLeft s).reverse.dropWhile (· == '_')).reverse

namespace Convention

def recaseChars (s : List Char) : Convention → List Char
  | .snake => Naming.snake s
  | .camel => Naming.camel s
  | .pascal => Naming.pascal s
  | .upper => upperSnake s
  | .privateSnake => '_' :: Naming.snake (trimUnderscoresLeft s)
  | .privateCamel => '_' :: Naming.camel (trimUnderscoresLeft s)
  | .dunderSnake => ['_', '_'] ++ Naming.snake (trimUnderscores s) ++ ['_', '_']
  | .dunderCamel => ['_', '_'] ++ Naming.camel (trimUnderscores s) ++ ['_', '_']

def recase (c : Convention) (name : String) : String :=
  String.ofList (recaseChars name.toList c)

end Convention

/-- The name in the convention of that name. A convention nobody knows leaves it alone. -/
def recaseAs (name convention : String) : String :=
  match Convention.ofName? convention with
  | some c => c.recase name
  | none => name

end Restyle.Naming

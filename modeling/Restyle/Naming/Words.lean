import Restyle.Text.Identifier
import Restyle.Naming.Recase

/-!
Reading a name: its words, the convention it follows, and whether it can be used. Also the strict
conversion, which goes through the words of a name and refuses an unknown convention.
-/

namespace Restyle.Naming

open Restyle.Text

def underscoreWords (s : List Char) : List (List Char) :=
  (splitOn '_' s).filter (!·.isEmpty)

/-- The word at the front of a text: capitals followed by small letters, or capitals that end a
word. It is empty if there is none. -/
def hump (s : List Char) : List Char :=
  let capitals := s.takeWhile isCapital
  let smalls := (s.drop capitals.length).takeWhile isSmall
  if !smalls.isEmpty then capitals ++ smalls
  else if (s.drop capitals.length).head?.any isWordChar then []
  else capitals

/-- The words of a name at its changes of case, characters outside words being skipped. -/
def humps : List Char → List (List Char)
  | [] => []
  | c :: rest =>
    match hump (c :: rest) with
    | [] => humps rest
    | w@(_ :: ws) => w :: humps (rest.drop ws.length)
termination_by s => s.length

def words (name : String) : List String :=
  if name.contains '_' then (underscoreWords name.toList).map String.ofList
  else match humps name.toList with
    | [] => [name]
    | ws => ws.map String.ofList

/-! ### Recognising a convention -/

inductive Style where
  | unknown
  | upper
  | snake
  | pascal
  | camel
  | mixed
deriving DecidableEq, Repr

def Style.name : Style → String
  | unknown => "unknown"
  | upper => "UPPER_CASE"
  | snake => "snake_case"
  | pascal => "PascalCase"
  | camel => "camelCase"
  | mixed => "mixed"

def styleOf (s : List Char) : Style :=
  let joined := !s.contains '_'
  match s with
  | [] => .unknown
  | first :: _ =>
    if isUpper s && (!joined || isAlphabetic s) then .upper
    else if !joined && isLower s then .snake
    else if joined && isUpperChar first && s.any isLowerChar then .pascal
    else if joined && isLowerChar first && s.any isUpperChar then .camel
    else if isLower s && joined then .snake
    else if isUpper s && joined then .upper
    else .mixed

def isConstantName (s : List Char) : Bool :=
  isUpper s && (s.contains '_' || isAlphabetic s)

def isPrivateName (name : String) : Bool :=
  name.startsWith "_" && !name.startsWith "__"

def isDunderName (name : String) : Bool :=
  name.startsWith "__" && name.endsWith "__" && name.length > 4

/-! ### Usable names -/

inductive NameFault where
  | empty
  | notIdentifier (name : String)
  | keyword (name : String)
deriving DecidableEq, Repr

def NameFault.message : NameFault → String
  | empty => "Name cannot be empty"
  | notIdentifier name => s!"'{name}' is not a valid Python identifier"
  | keyword name => s!"'{name}' is a Python keyword"

def nameFault? (name : String) : Option NameFault :=
  if name.isEmpty then some .empty
  else if !isIdentifier name.toList then some (.notIdentifier name)
  else if isKeyword name then some (.keyword name)
  else none

/-! ### Strict conversion -/

/-- Camel case by the words of a name. A name without any would stay as it is. -/
def camelOfWords : List Char → List Char
  | [] => []
  | s@(c :: rest) =>
    if s.contains '_' then
      match lowerWords s with
      | [] => s
      | w :: ws => w ++ ws.flatMap capitalize
    else lowerChar c ++ rest

/-- Pascal case by the words of a name: its empty words are dropped first. -/
def pascalOfWords : List Char → List Char
  | [] => []
  | s@(c :: rest) =>
    if s.contains '_' then ((lowerWords s).filter (!·.isEmpty)).flatMap capitalize
    else upperChar c ++ rest

structure UnsupportedConvention where
  convention : String
deriving DecidableEq, Repr

def UnsupportedConvention.message (e : UnsupportedConvention) : String :=
  s!"Unsupported naming convention: {e.convention}"

/-- The name in the convention of that name, which has to be one of the eight. -/
def recaseStrict (name convention : String) : Except UnsupportedConvention String :=
  let s := name.toList
  match Convention.ofName? convention with
  | none => .error ⟨convention⟩
  | some .camel => .ok (String.ofList (camelOfWords s))
  | some .pascal => .ok (String.ofList (pascalOfWords s))
  | some .privateCamel => .ok (String.ofList ('_' :: camelOfWords (trimUnderscoresLeft s)))
  | some .dunderCamel =>
    .ok (String.ofList (['_', '_'] ++ camelOfWords (trimUnderscores s) ++ ['_', '_']))
  | some c => .ok (c.recase name)

end Restyle.Naming

import Restyle.Text.Quoted
import Restyle.Json.Binary64

/-!
JSON documents. Numbers written without fraction and exponent are integers of any size, all
others are floating-point numbers. An object keeps its members in the order of their first
appearance.
-/

namespace Restyle.Json

inductive Value where
  | null
  | bool (b : Bool)
  | int (n : Int)
  | real (x : Binary64)
  | str (s : String)
  | arr (items : List Value)
  | obj (members : List (String × Value))
deriving Repr

namespace Value

/-- The members of an object with one set: a known name keeps its place. -/
def setMember (name : String) (value : Value) : List (String × Value) → List (String × Value)
  | [] => [(name, value)]
  | (k, v) :: rest =>
    if k = name then (k, value) :: rest else (k, v) :: setMember name value rest

def member? (name : String) : Value → Option Value
  | .obj members => members.lookup name
  | _ => none

def at? (v : Value) : List String → Option Value
  | [] => some v
  | name :: rest => (v.member? name).bind (·.at? rest)

/-- Whether a value counts as true where a condition is asked: empty and zero values do not. -/
def isTruthy : Value → Bool
  | .null => false
  | .bool b => b
  | .int n => n != 0
  | .real (.finite _ m _) => m != 0
  | .real _ => true
  | .str s => !s.isEmpty
  | .arr items => !items.isEmpty
  | .obj members => !members.isEmpty

def asString? : Value → Option String
  | .str s => some s
  | _ => none

def asList? : Value → Option (List Value)
  | .arr items => some items
  | _ => none

mutual

def literal : Value → String
  | .null => "None"
  | .bool b => if b then "True" else "False"
  | .int n => toString n
  | .real x => x.text
  | .str s => Text.quoted s
  | .arr items => "[" ++ String.intercalate ", " (literals items) ++ "]"
  | .obj members => "\x7b" ++ String.intercalate ", " (memberLiterals members) ++ "\x7d"

def literals : List Value → List String
  | [] => []
  | v :: vs => v.literal :: literals vs

def memberLiterals : List (String × Value) → List String
  | [] => []
  | (k, v) :: rest => (Text.quoted k ++ ": " ++ v.literal) :: memberLiterals rest

end

end Value

end Restyle.Json

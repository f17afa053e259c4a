/-!
The naming conventions and their names.
-/

namespace Restyle.Naming

/-- How the words of a name are joined, and which underscores stand around it. -/
inductive Convention where
  | snake
  | camel
  | pascal
  | upper
  | privateSnake
  | privateCamel
  | dunderSnake
  | dunderCamel
deriving DecidableEq, Repr

namespace Convention

def all : List Convention :=
  [snake, camel, pascal, upper, privateSnake, privateCamel, dunderSnake, dunderCamel]

def name : Convention → String
  | snake => "snake_case"
  | camel => "camelCase"
  | pascal => "PascalCase"
  | upper => "UPPER_CASE"
  | privateSnake => "_snake_case"
  | privateCamel => "_camelCase"
  | dunderSnake => "__snake_case__"
  | dunderCamel => "__camelCase__"

def ofName? (s : String) : Option Convention :=
  all.find? (·.name == s)

theorem mem_all (c : Convention) : c ∈ all := by
  cases c <;> decide

end Convention

end Restyle.Naming

import Restyle.Json.Reader

/-!
Schemas for configuration documents. A schema is a list of rules in the order in which they are
written, and a document obeys it if it keeps all of them. Whether it does is for a validator to say.
-/

namespace Restyle.Config

open Json

inductive Shape where
  | object
  | array
  | string
  | boolean
  | integer
deriving DecidableEq, Repr

namespace Shape

def name : Shape → String
  | object => "object"
  | array => "array"
  | string => "string"
  | boolean => "boolean"
  | integer => "integer"

def ofName? (s : String) : Option Shape :=
  [object, array, string, boolean, integer].find? (·.name == s)

/-- A number without fractional part is an integer however it is written. -/
def fits : Shape → Value → Bool
  | object, .obj _ => true
  | array, .arr _ => true
  | string, .str _ => true
  | boolean, .bool _ => true
  | integer, .int _ => true
  | integer, .real x => x.isIntegral
  | _, _ => false

end Shape

inductive Rule where
  | shape (s : Shape)
  | options (values : List String)
  | required (names : List String)
  | properties (members : List (String × List Rule))
  | items (rules : List Rule)
  | minimum (n : Nat)
  | maximum (n : Nat)
deriving Repr

abbrev Schema := List Rule

inductive Step where
  | key (name : String)
  | index (i : Nat)
deriving DecidableEq, Repr

inductive Cause where
  | wrongShape (value : Value) (expected : Shape)
  | notOption (value : Value) (options : List String)
  | missing (name : String)
  | below (value : Value) (bound : Nat)
  | above (value : Value) (bound : Nat)
deriving Repr

def Cause.message : Cause → String
  | wrongShape v s => s!"{v.literal} is not of type {Text.quoted s.name}"
  | notOption v options => s!"{v.literal} is not one of {(Value.arr (options.map .str)).literal}"
  | missing name => s!"{Text.quoted name} is a required property"
  | below v n => s!"{v.literal} is less than the minimum of {n}"
  | above v n => s!"{v.literal} is greater than the maximum of {n}"

structure Violation where
  place : List Step
  cause : Cause
  /-- Whether the part has the shape that its schema asks for. -/
  shapeFits : Bool
deriving Repr

namespace Schema

def isBelow : Value → Nat → Bool
  | .int i, n => i < n
  | .real x, n => x.isBelow n
  | _, _ => false

def isAbove : Value → Nat → Bool
  | .int i, n => i > n
  | .real x, n => x.isAbove n
  | _, _ => false

end Schema

mutual

/-- A value keeps a rule. Rules about members and items ask nothing of values without any. -/
def Rule.Kept : Rule → Value → Prop
  | .shape s, v => s.fits v = true
  | .options values, v => ∃ s ∈ values, v = .str s
  | .required names, v => ∀ members, v = .obj members → ∀ n ∈ names, members.lookup n ≠ none
  | .properties members, v => MembersObey members v
  | .items rules, v => ∀ item ∈ v.asList?.getD [], Obeys rules item
  | .minimum n, v => Schema.isBelow v n = false
  | .maximum n, v => Schema.isAbove v n = false

def Obeys : List Rule → Value → Prop
  | [], _ => True
  | rule :: rest, v => rule.Kept v ∧ Obeys rest v

/-- The members that a value has obey the schemas for their names. -/
def MembersObey : List (String × List Rule) → Value → Prop
  | [], _ => True
  | (name, rules) :: rest, v =>
    (∀ part, v.member? name = some part → Obeys rules part) ∧ MembersObey rest v

end

/-- A validator reports a violation of every document that does not obey, and of no other. -/
class Validator where
  violation? : Schema → Value → Option Violation
  violation?_eq_none_iff : ∀ s v, violation? s v = none ↔ Obeys s v

def Schema.violation? [Validator] (s : Schema) (v : Value) : Option Violation :=
  Validator.violation? s v

theorem Schema.violation?_eq_none_iff [Validator] (s : Schema) (v : Value) :
    s.violation? v = none ↔ Obeys s v := Validator.violation?_eq_none_iff s v

/-! ### Schemas as documents -/

mutual

/-- The rules that a document states. Words that state no rule are skipped. -/
def Schema.ofDocument : Value → Schema
  | .obj members => rulesOf members
  | _ => []

def rulesOf : List (String × Value) → List Rule
  | [] => []
  | (word, v) :: rest => (ruleOf? word v).toList ++ rulesOf rest

def ruleOf? (word : String) : Value → Option Rule
  | .str s => if word = "type" then (Shape.ofName? s).map .shape else none
  | .arr values =>
    if word = "enum" then some (.options (values.filterMap Value.asString?))
    else if word = "required" then some (.required (values.filterMap Value.asString?))
    else none
  | .obj members =>
    if word = "properties" then some (.properties (membersOf members))
    else if word = "items" then some (.items (rulesOf members))
    else none
  | .int n =>
    if word = "minimum" then some (.minimum n.toNat)
    else if word = "maximum" then some (.maximum n.toNat)
    else none
  | _ => none

def membersOf : List (String × Value) → List (String × List Rule)
  | [] => []
  | (name, v) :: rest => (name, Schema.ofDocument v) :: membersOf rest

end

/-! ### The schema of the tool's configuration -/

def text : Schema := [.shape .string]

def flag : Schema := [.shape .boolean]

def oneOf (values : List String) : Schema := [.shape .string, .options values]

def textList : Schema := [.shape .array, .items text]

def fewLines : Schema := [.shape .integer, .minimum 0, .maximum 5]

def outputSchema : Schema :=
  [.shape .object, .required ["mode"], .properties
    [("mode", oneOf ["in_place", "new_files"]), ("confirm_changes", flag), ("show_diffs", flag),
     ("new_files_suffix", text)]]

def selectionSchema : Schema :=
  [.shape .object, .properties
    [("include_patterns", textList), ("exclude_patterns", textList), ("recursive", flag)]]

def namingSchema : Schema :=
  [.shape .object, .properties
    [("variables", oneOf ["snake_case", "camelCase", "PascalCase"]),
     ("functions", oneOf ["snake_case", "camelCase", "PascalCase"]),
     ("classes", oneOf ["snake_case", "camelCase", "PascalCase"]),
     ("constants", oneOf ["UPPER_CASE", "snake_case"]),
     ("private_methods", oneOf ["_snake_case", "_camelCase"]),
     ("dunder_methods", oneOf ["__snake_case__", "__camelCase__"])]]

def formattingSchema : Schema :=
  [.shape .object, .properties
    [("blank_lines_after_class", fewLines), ("blank_lines_after_function", fewLines)]]

def rulesSchema : Schema :=
  [.shape .object, .properties
    [("variable_naming", flag), ("function_naming", flag), ("class_naming", flag),
     ("constant_naming", flag), ("private_method_naming", flag), ("dunder_method_naming", flag),
     ("blank_lines", flag), ("docstring_formatting", flag)]]

def Schema.standard : Schema :=
  [.shape .object,
   .required ["output", "file_selection", "naming_conventions", "formatting_rules",
     "enabled_rules"],
   .properties
    [("output", outputSchema), ("file_selection", selectionSchema),
     ("naming_conventions", namingSchema), ("formatting_rules", formattingSchema),
     ("enabled_rules", rulesSchema)]]

end Restyle.Config

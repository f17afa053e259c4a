import Restyle.Config.Load
import Restyle.Element.Kind
import Restyle.Naming.Recase

/-!
What a configuration means for the parts of the tool, with types.
-/

namespace Restyle

inductive OutputMode where
  | inPlace
  | newFiles
  | unknown (name : String)
deriving DecidableEq, Repr

namespace OutputMode

def name : OutputMode → String
  | inPlace => "in_place"
  | newFiles => "new_files"
  | unknown s => s

def ofName (s : String) : OutputMode :=
  if s = "in_place" then inPlace else if s = "new_files" then newFiles else unknown s

end OutputMode

/-- How many blank lines to add. A number written with a fraction is accepted by the schema, but
it is no count. -/
inductive LineCount where
  | count (n : Nat)
  | fractional
deriving DecidableEq, Repr

inductive NamingGroup where
  | vars
  | functions
  | classes
  | constants
  | privateMethods
  | dunderMethods
deriving DecidableEq, Repr

namespace NamingGroup

def all : List NamingGroup :=
  [vars, functions, classes, constants, privateMethods, dunderMethods]

def conventionKey : NamingGroup → String
  | vars => "variables"
  | functions => "functions"
  | classes => "classes"
  | constants => "constants"
  | privateMethods => "private_methods"
  | dunderMethods => "dunder_methods"

def ruleKey : NamingGroup → String
  | vars => "variable_naming"
  | functions => "function_naming"
  | classes => "class_naming"
  | constants => "constant_naming"
  | privateMethods => "private_method_naming"
  | dunderMethods => "dunder_method_naming"

/-- Methods are named like functions, unless their name marks them as private or special. -/
def ofKind? : ElementKind → Option NamingGroup
  | .var => some vars
  | .function => some functions
  | .classType => some classes
  | .constant => some constants
  | .method => some functions
  | .privateMethod => some privateMethods
  | .dunderMethod => some dunderMethods
  | .other _ => none

end NamingGroup

structure Settings where
  mode : OutputMode
  confirmChanges : Bool
  showDiffs : Bool
  newFilesSuffix : String
  includePatterns : List String
  excludePatterns : List String
  recursive : Bool
  afterClass : LineCount
  afterFunction : LineCount
  convention : NamingGroup → Option String
  naming : NamingGroup → Bool
  blankLines : Bool
  docstrings : Bool

namespace Config

open Json

def lineCount : Value → LineCount
  | .int n => .count n.toNat
  | _ => .fractional

def strings (v : Value) : List String := (v.asList?.getD []).filterMap Value.asString?

def settings (c : Config) : Settings where
  mode := OutputMode.ofName (c.outputMode.asString?.getD "")
  confirmChanges := c.confirmChanges.isTruthy
  showDiffs := c.showDiffs.isTruthy
  newFilesSuffix := c.newFilesSuffix.asString?.getD ""
  includePatterns := strings c.includePatterns
  excludePatterns := strings c.excludePatterns
  recursive := c.recursive.isTruthy
  afterClass := lineCount c.blankLinesAfterClass
  afterFunction := lineCount c.blankLinesAfterFunction
  convention g := (c.namingConvention g.conventionKey).asString?
  naming g := (c.ruleEnabled g.ruleKey).isTruthy
  blankLines := (c.ruleEnabled "blank_lines").isTruthy
  docstrings := (c.ruleEnabled "docstring_formatting").isTruthy

end Config

namespace Settings

/-- The name that an element has to have, if a rule applies to it. -/
def requiredName? (s : Settings) (kind : ElementKind) (name : String) : Option String :=
  match NamingGroup.ofKind? kind with
  | none => none
  | some g =>
    if !s.naming g then none
    else match s.convention g with
      | none => none
      | some convention =>
        if convention.isEmpty then none else some (Naming.recaseAs name convention)

def anyNaming (s : Settings) : Bool := NamingGroup.all.any s.naming

end Settings

end Restyle

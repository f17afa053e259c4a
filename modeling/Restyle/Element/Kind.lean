/-!
What a named piece of code is.
-/

namespace Restyle

inductive ElementKind where
  | var
  | function
  | classType
  | constant
  | method
  | privateMethod
  | dunderMethod
  /-- A label that no rule knows. -/
  | other (label : String)
deriving DecidableEq, Repr

namespace ElementKind

def label : ElementKind → String
  | .var => "variable"
  | .function => "function"
  | .classType => "class"
  | .constant => "constant"
  | .method => "method"
  | .privateMethod => "private_method"
  | .dunderMethod => "dunder_method"
  | .other s => s

def known : List ElementKind :=
  [.var, .function, .classType, .constant, .method, .privateMethod, .dunderMethod]

def ofLabel (s : String) : ElementKind := (known.find? (·.label == s)).getD (.other s)

end ElementKind

structure Element where
  kind : ElementKind
  name : String
  line : Nat
  column : Nat
  context : String
deriving DecidableEq, Repr

end Restyle

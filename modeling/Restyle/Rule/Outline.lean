import Restyle.Text.Case
import Restyle.Text.Search

/-!
The outline of a rule: what a rule shares with all others before it says anything of its own.
-/

namespace Restyle.Rule

inductive Duty where
  | apply
  | canApply
  | isEnabled
deriving DecidableEq, Repr

namespace Duty

def all : List Duty := [apply, canApply, isEnabled]

def name : Duty → String
  | apply => "apply"
  | canApply => "can_apply"
  | isEnabled => "is_enabled"

end Duty

structure Outline where
  typeName : String
  name : String
  description : String
  priority : Nat
  problems : List String
deriving DecidableEq, Repr

structure Unfinished where
  typeName : String
  duties : List Duty
deriving DecidableEq, Repr

def Unfinished.message (u : Unfinished) : String :=
  let plural := if u.duties.length = 1 then "" else "s"
  let names := String.intercalate ", " (u.duties.map Duty.name)
  s!"Can't instantiate abstract class {u.typeName} with abstract method{plural} {names}"

def defaultPriority : Nat := 100

def outline (typeName : String) (isOpen : Duty → Bool) : Except Unfinished Outline :=
  match Duty.all.filter isOpen with
  | [] => .ok
    { typeName
      name := String.ofList (Text.replace "rule".toList [] (Text.lower typeName.toList))
      description := typeName ++ ": No description available"
      priority := defaultPriority
      problems := [] }
  | duties => .error ⟨typeName, duties⟩

end Restyle.Rule

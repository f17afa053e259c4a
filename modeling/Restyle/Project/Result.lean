import Restyle.Disk.Path
import Restyle.Element.Kind
import Restyle.Pattern.Basic

/-!
What processing makes of names and files. Changes are kept as they are told; the name that a change
is about is read from its wording.
-/

namespace Restyle

structure Renamed where
  source : String
  text : String
  changes : List String
  elements : List Element
deriving DecidableEq, Repr

structure FileResult where
  path : Disk.Path
  success : Bool
  source : String
  code : Option String
  changes : List String
  error : Option String
deriving DecidableEq, Repr

namespace FileResult

def processed (path : Disk.Path) (source code : List Char) (changes : List String) :
    FileResult :=
  ⟨path, true, String.ofList source, some (String.ofList code), changes, none⟩

def failed (path : Disk.Path) (error : String) : FileResult :=
  ⟨path, false, "", none, [], some error⟩

@[simp] theorem changes_failed (path : Disk.Path) (error : String) :
    (failed path error).changes = [] := rfl

end FileResult

namespace Project

/-- An old name in quotes followed by a new one. -/
def renamePattern : Pattern :=
  let quote := Pattern.char (.exactly Text.singleQuote)
  let inner := Pattern.char (.other Text.singleQuote)
  let name := inner + Pattern.many inner
  quote + Pattern.group 1 name + quote + Pattern.literal " to ".toList + quote +
    Pattern.group 2 name + quote

def changedName? (change : String) : Option String :=
  (renamePattern.find? change.toList).map fun m => String.ofList (m.group 1)

end Project

end Restyle

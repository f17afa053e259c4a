import Restyle.Table

/-!
Maps from old names to new ones.
-/

namespace Restyle

abbrev NameMap := Table String String

namespace NameMap

/-- The new name of a name; a name without entry keeps itself. -/
def apply (m : NameMap) (name : String) : String := (m.get? name).getD name

def longestFirst (m : NameMap) : List (String × String) :=
  m.entries.mergeSort fun a b => b.1.length ≤ a.1.length

end NameMap

end Restyle

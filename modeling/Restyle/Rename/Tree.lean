import Restyle.Rename.NameMap
import Restyle.Syntax.Tree

/-!
Renaming in syntax trees: names, attributes, functions and classes get their new names, all at
once.
-/

namespace Restyle.Syntax

def Label.rename (m : NameMap) : Label → Label
  | .name id access => .name (m.apply id) access
  | .attr a access => .attr (m.apply a) access
  | .functionDef isAsync n => .functionDef isAsync (m.apply n)
  | .classDef n => .classDef (m.apply n)
  | l => l

namespace Tree

mutual

def rename (m : NameMap) : Tree → Tree
  | node l r s cs => node (l.rename m) r s (renameList m cs)

def renameList (m : NameMap) : List Tree → List Tree
  | [] => []
  | t :: ts => t.rename m :: renameList m ts

end

end Tree

end Restyle.Syntax

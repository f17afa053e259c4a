import Restyle.Disk.Path
import Restyle.Table

/-!
The dotted names of modules. A file is named for its place below the root of the project, and the
initial file of a package for the package.
-/

namespace Restyle.Symbol

open Disk (Path)

def initialStem : String := "__init__"

/-- The dotted name of names that lead from the root to a file. -/
def dottedName (names : List String) : String :=
  let stem := Path.stem ⟨"", names⟩
  let parts := if stem = initialStem then names.dropLast else names.dropLast ++ [stem]
  if parts.isEmpty then stem else String.intercalate "." parts

def moduleName (root path : Path) : Except Path.NotBelow String :=
  (path.relativeTo root).map dottedName

/-- The modules of files, and the files of modules. Of two files with the same module the later
one stands for it. -/
def moduleTables (root : Path) (paths : List Path) :
    Except Path.NotBelow (Table Path String × Table String Path) :=
  paths.foldlM (fun (modules, files) path => do
    let name ← moduleName root path
    return (modules.insert path name, files.insert name path)) (.empty, .empty)

end Restyle.Symbol

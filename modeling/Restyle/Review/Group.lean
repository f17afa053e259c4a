import Restyle.Project.Result
import Restyle.Text.Search

/-!
Groups of files that are reviewed together: a file whose own names change, and the files that use
these names.
-/

namespace Restyle

namespace FileResult

def hasChanges (r : FileResult) : Bool :=
  match r.code with
  | none => false
  | some code => !code.isEmpty && code != r.source && !r.changes.isEmpty

end FileResult

namespace Review

def crossMark : List Char := "(cross-file)".toList

def isDefinition (r : FileResult) : Bool :=
  r.changes.any fun c => !Text.occursIn crossMark c.toList

def changedNames (r : FileResult) : List String := r.changes.filterMap Project.changedName?

def mentions (r : FileResult) (names : List String) : Bool :=
  r.changes.any fun c => names.any fun n => Text.occursIn n.toList c.toList

structure Group where
  definition : FileResult
  usages : List FileResult
  names : List String
deriving DecidableEq, Repr

/-- A file with changes of its own, and the files that mention its names. -/
def groupOf (usages : List FileResult) (definition : FileResult) : Group :=
  let names := changedNames definition
  ⟨definition, usages.filter (mentions · names), names⟩

/-- Groups of files. A file that belongs to no other one is a group for itself. -/
def groups (rs : List FileResult) : List Group :=
  let definitions := rs.filter isDefinition
  let usages := rs.filter (!isDefinition ·)
  let linked := definitions.map (groupOf usages)
  let paths := linked.flatMap fun g => g.usages.map (·.path)
  let orphans := usages.filter (!paths.contains ·.path)
  linked ++ orphans.map fun r => ⟨r, [], changedNames r⟩

def categories (rs : List FileResult) : String :=
  let definitions := (rs.filter isDefinition).length
  let usages := rs.length - definitions
  s!"🔍 Categorization: {definitions} definition files, {usages} usage files"

def shownUsages : Nat := 5

/-- The changes of the file that is reviewed, with the other files that they concern. -/
def Group.announcement (g : Group) : List String :=
  let n := g.usages.length
  let rest := n - shownUsages
  if n = 0 then g.definition.changes
  else g.definition.changes ++
    ["", s!"📋 This will automatically update {n} usage files:"] ++
    (g.usages.take shownUsages).map (fun u => s!"   • {u.path.name}") ++
    if n > shownUsages then [s!"   • ... and {rest} more files"] else []

end Review

end Restyle

import Restyle.Source.Session

/-!
The names of a project: where they are defined, used and imported.
-/

namespace Restyle.Symbol

open Disk (Path)

structure Definition where
  path : Path
  element : Element
deriving DecidableEq, Repr

/-- The forms in which code uses a name. The owner is the name before the dot. -/
inductive UsageForm where
  | read
  | call
  | member (owner : String)
  | memberCall (owner : String)
deriving DecidableEq, Repr

namespace UsageForm

def label : UsageForm → String
  | read => "direct"
  | call => "direct"
  | member _ => "attribute_access"
  | memberCall _ => "attribute_access"

def context : UsageForm → String
  | read => "direct_usage"
  | call => "function_call"
  | member owner => s!"attribute_access_on_{owner}"
  | memberCall owner => s!"method_call_on_{owner}"

def owner? : UsageForm → Option String
  | read => none
  | call => none
  | member owner => some owner
  | memberCall owner => some owner

end UsageForm

structure Usage where
  name : String
  form : UsageForm
  path : Path
  line : Nat
deriving DecidableEq, Repr

inductive ImportForm where
  | whole
  | members
deriving DecidableEq, Repr

def ImportForm.label : ImportForm → String
  | whole => "import"
  | members => "from_import"

structure Import where
  path : Path
  line : Nat
  form : ImportForm
  source : String
  names : List String
  aliases : NameMap
deriving DecidableEq, Repr

/-- What is known about the names of a project, and the session that its files are loaded in. -/
structure SymbolMap where
  definitions : Index Definition
  usages : Index Usage
  imports : List Import
  moduleOf : Table Path String
  fileOf : Table String Path
  session : Session

namespace SymbolMap

def empty : SymbolMap := ⟨.empty, .empty, [], .empty, .empty, .start⟩

def importedNames (i : Import) : List (String × String) :=
  i.names.map fun name =>
    (i.aliases.apply name, match i.form with
      | .whole => name
      | .members => s!"{i.source}.{name}")

/-- The names that a file imports, with what they stand for. -/
def importedBy (m : SymbolMap) (path : Path) : NameMap :=
  .ofList ((m.imports.filter (·.path = path)).flatMap importedNames)

structure Edit where
  line : Nat
  old : String
  new : String
deriving DecidableEq, Repr

/-- The places of a name, first where it is defined, then where it is used. -/
def places (m : SymbolMap) (name : String) : List (Path × Nat) :=
  ((Index.all m.definitions name).map fun d => (d.path, d.element.line)) ++
    (Index.all m.usages name).map fun u => (u.path, u.line)

def edits (m : SymbolMap) (old new : String) : Table Path (List Edit) :=
  (m.places old).foldl (fun t (path, line) => t.modify path [] (· ++ [⟨line, old, new⟩])) .empty

end SymbolMap

end Restyle.Symbol

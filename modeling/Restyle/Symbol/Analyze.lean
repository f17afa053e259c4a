import Restyle.Symbol.Basic
import Restyle.Symbol.ModuleName

/-!
Finding the names of a project in its files.
-/

namespace Restyle.Symbol

open Disk (Path)
open Syntax

variable [Dialect]

/-! ### One file -/

/-- The definitions that a session finds in a file. A missing file and one that is no source have
none. -/
def definitionsFrom (s : Session) (d : Disk) (path : Path) :
    Session × Except Session.Fault (List Definition) :=
  match s.loadFile d path with
  | (s, none) => (s, (s.elements).map fun es => es.map (⟨path, ·⟩))
  | (s, some (.complaint .notFound _)) => (s, .ok [])
  | (s, some (.complaint .grammar _)) => (s, .ok [])
  | (s, some f) => (s, .error f)

def definitionsIn (d : Disk) (path : Path) : Except Session.Fault (List Definition) :=
  (definitionsFrom .start d path).2

def treeIn? (d : Disk) (path : Path) : Except Disk.Refusal (Option Tree) :=
  match Source.readText d path with
  | .ok text => .ok (parse? text)
  | .error (.refused r) => .error r
  | .error _ => .ok none

def aliasPair? (t : Tree) : Option (String × Option String) :=
  match t.label with
  | .importName name asName => some (name, asName)
  | _ => none

def aliasMap (pairs : List (String × Option String)) : NameMap :=
  .ofList (pairs.filterMap fun (name, asName) => asName.map fun a => (name, a))

/-- The imports at a node. Those from a package given by dots alone are left out. -/
def importsAt (path : Path) (t : Tree) : List Import :=
  let pairs := t.children.filterMap aliasPair?
  match t.label with
  | .importStmt =>
    pairs.map fun p => ⟨path, t.line, .whole, p.1, [p.1], aliasMap [p]⟩
  | .importFrom (some source) _ =>
    [⟨path, t.line, .members, source, pairs.map (·.1), aliasMap pairs⟩]
  | _ => []

def importsIn (d : Disk) (path : Path) : Except Disk.Refusal (List Import) :=
  (treeIn? d path).map fun
    | some t => t.breadthFirst.flatMap (importsAt path)
    | none => []

def nameOf? (t : Tree) : Option String :=
  match t.label with
  | .name id _ => some id
  | _ => none

/-- The name before the dot of an attribute, and the attribute. -/
def memberOf? (t : Tree) : Option (String × String) :=
  match t.label with
  | .attr a _ => ((t.part? .value).bind nameOf?).map fun owner => (owner, a)
  | _ => none

/-- What a node itself uses, apart from its children. -/
def usageAt? (path : Path) (t : Tree) : Option Usage :=
  match t.label with
  | .name id .load => some ⟨id, .read, path, t.line⟩
  | .attr _ _ => (memberOf? t).map fun (owner, a) => ⟨a, .member owner, path, t.line⟩
  | .call =>
    (t.part? .func).bind fun f =>
      match nameOf? f with
      | some id => some ⟨id, .call, path, t.line⟩
      | none => (memberOf? f).map fun (owner, a) => ⟨a, .memberCall owner, path, t.line⟩
  | _ => none

/-- The usages in a file. What the file imports is at hand, and makes no difference. -/
def usagesIn (d : Disk) (path : Path) (_imported : NameMap := .empty) :
    Except Disk.Refusal (List Usage) :=
  (treeIn? d path).map fun
    | some t => t.preorder.filterMap (usageAt? path)
    | none => []

/-! ### All files -/

namespace SymbolMap

def addDefinitions (m : SymbolMap) (ds : List Definition) : SymbolMap :=
  { m with definitions := ds.foldl (fun t d => Index.add t d.element.name d) m.definitions }

def addUsages (m : SymbolMap) (us : List Usage) : SymbolMap :=
  { m with usages := us.foldl (fun t u => Index.add t u.name u) m.usages }

def addNames (d : Disk) (m : SymbolMap) (path : Path) : SymbolMap × List String :=
  let warning (e : String) : String := s!"⚠️  Warning: Could not analyze {path}: {e}"
  match definitionsFrom m.session d path with
  | (session, .error f) => ({ m with session }, [warning f.message])
  | (session, .ok ds) =>
    let m := { m with session }.addDefinitions ds
    match importsIn d path with
    | .error r => (m, [warning r.message])
    | .ok is => ({ m with imports := m.imports ++ is }, [])

def addUses (d : Disk) (m : SymbolMap) (path : Path) : SymbolMap × List String :=
  match usagesIn d path (m.importedBy path) with
  | .error r => (m, [s!"⚠️  Warning: Could not analyze usages in {path}: {r.message}"])
  | .ok us => (m.addUsages us, [])

/-- Runs a step on every path, and collects what it tells. -/
def overPaths (step : SymbolMap → Path → SymbolMap × List String) (m : SymbolMap)
    (paths : List Path) : SymbolMap × List String :=
  paths.foldl (fun (m, told) path => let (m, more) := step m path; (m, told ++ more)) (m, [])

def summary (m : SymbolMap) : List String :=
  let definitions := Index.count m.definitions
  let usages := Index.count m.usages
  ["📊 Symbol Analysis Summary:",
   s!"   • Found {definitions} symbol definitions",
   s!"   • Found {usages} symbol usages",
   s!"   • Found {m.imports.length} import statements",
   s!"   • Analyzed {m.moduleOf.size} files"]

/-- The result of an analysis: the names known afterwards, what was told, and the file that lies
outside the project if there is one. -/
structure Analysis where
  map : SymbolMap
  told : List String
  fault : Option Path.NotBelow

def analyze (m : SymbolMap) (d : Disk) (root : Path) (paths : List Path) : Analysis :=
  let start := s!"🔍 Analyzing {paths.length} files for cross-file symbols..."
  match moduleTables root paths with
  | .error e => ⟨m, [start], some e⟩
  | .ok (moduleOf, fileOf) =>
    let m := { m with moduleOf := moduleOf, fileOf := fileOf }
    let (m, first) := m.overPaths (addNames d) paths
    let (m, second) := m.overPaths (addUses d) paths
    ⟨m, start :: first ++ second ++ m.summary, none⟩

end SymbolMap

end Restyle.Symbol

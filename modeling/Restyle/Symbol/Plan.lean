import Restyle.Config.Settings
import Restyle.Symbol.Basic
import Restyle.Text.Search

/-!
The plan of a project: which names get another one, and which files that concerns.
-/

namespace Restyle.Symbol

open Disk (Path)

structure Transformation where
  old : String
  new : String
  kind : String
  file : Path
  affected : List Path
deriving DecidableEq, Repr

def Transformation.purpose : String := "naming_convention"

def isTestPath (p : Path) : Bool := Text.occursIn "test".toList (Text.lower p.text.toList)

def depth (d : Definition) : Nat := d.path.parts.length

/-- The first definition that no other one lies above. -/
def shallowest : List Definition → Option Definition
  | [] => none
  | d :: rest =>
    match shallowest rest with
    | none => some d
    | some e => if depth d ≤ depth e then some d else some e

/-- The definition that decides about a name: the only one, or the one nearest to the root outside
of tests, or else the first one. -/
def primary? : List Definition → Option Definition
  | [d] => some d
  | ds => (shallowest (ds.filter (!isTestPath ·.path))).or ds.head?

namespace SymbolMap

def filesWith (m : SymbolMap) (name : String) : List Path :=
  (((m.places name).map (·.1)) ++
    (m.imports.filter (·.names.contains name)).map (·.path)).eraseDups

def transformation? (s : Settings) (m : SymbolMap) (name : String) (ds : List Definition) :
    Option Transformation := do
  let d ← primary? ds
  let new ← s.requiredName? d.element.kind d.element.name
  if new.isEmpty || new = name then none
  else some ⟨name, new, d.element.kind.label, d.path, m.filesWith name⟩

def plan (s : Settings) (m : SymbolMap) : List Transformation :=
  m.definitions.entries.filterMap fun (name, ds) => m.transformation? s name ds

def planReport (ts : List Transformation) : List String :=
  "🔍 Analyzing symbols for global transformations..." ::
    ts.map (fun t =>
      s!"🎯 Global transformation: {t.old} → {t.new} (affects {t.affected.length} files)") ++
    [s!"✅ Generated {ts.length} global transformations"]

/-- The word for a name in a file: what it is defined as there, or what its uses suggest. -/
def kindIn (m : SymbolMap) (name : String) (path : Path) : String :=
  match (Index.all m.definitions name).find? (·.path = path) with
  | some d => d.element.kind.label
  | none =>
    let suggested (u : Usage) : Option String :=
      let context := Text.lower u.form.context.toList
      if Text.occursIn "class".toList context then some "class"
      else if Text.occursIn "function".toList context then some "function"
      else none
    let uses := (Index.all m.usages name).filter (·.path = path)
    (uses.findSome? suggested).getD "symbol"

end SymbolMap

def renamesIn (ts : List Transformation) (path : Path) : NameMap :=
  .ofList ((ts.filter (·.affected.contains path)).map fun t => (t.old, t.new))

end Restyle.Symbol

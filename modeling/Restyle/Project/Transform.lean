import Restyle.Rename.Usage
import Restyle.Symbol.Plan

/-!
New names in all files of a project, with a summary of what was changed.
-/

namespace Restyle.Project

open Disk (Path)
open Restyle.Symbol (Transformation)

structure FileTransformation where
  path : Path
  source : List Char
  text : List Char
  applied : NameMap
  imports : List String
  changes : List String

inductive LoadFault where
  | refused (refusal : Disk.Refusal)
  | undecodable (fault : Text.Utf8Fault)

def LoadFault.message : LoadFault → String
  | refused r => r.message
  | undecodable f => f.message

def loadText (d : Disk) (path : Path) : Except LoadFault (List Char) :=
  match d.read path with
  | .error r => .error (.refused r)
  | .ok bytes =>
    match Text.decode bytes with
    | .ok s => .ok (Text.unifyNewlines s)
    | .error f => .error (.undecodable f)

inductive TransformFault where
  | notLoaded (path : Path)
  | template (path : Path) (fault : Rename.TemplateFault)

def TransformFault.message : TransformFault → String
  | notLoaded path =>
    let shown := Text.quoted path.text
    s!"Error transforming {path}: PosixPath({shown})"
  | template path f => s!"Error transforming {path}: Error transforming file {path}: {f.message}"

/-- New names in a text: in its imports, then where they are used, then where they are defined. -/
def transformText [Dialect] (path : Path) (names : NameMap) (text : List Char) :
    Except Rename.TemplateFault FileTransformation := do
  let (imported, imports) ← Rename.renameImports names text
  let (used, usages) ← Rename.renameUsages names imported
  let (defined, definitions) ← Rename.renameDefinitions names used
  return ⟨path, text, defined, names, imports, usages ++ definitions ++ imports⟩

def transformFile [Dialect] (ts : List Transformation) (path : Path)
    (loaded : Except LoadFault (List Char)) : Except TransformFault FileTransformation :=
  match loaded with
  | .error _ => .error (.notLoaded path)
  | .ok text => (transformText path (Symbol.renamesIn ts path) text).mapError (.template path)

structure TransformResult where
  files : List FileTransformation
  errors : List TransformFault

/-- Gives the names of a plan to all files that it concerns. The lines are those that are told on
the way. -/
def transformAll [Dialect] (d : Disk) (ts : List Transformation) :
    TransformResult × List String :=
  let paths := (ts.flatMap (·.affected)).eraseDups
  let loaded := paths.map fun p => (p, loadText d p)
  let warnings := loaded.filterMap fun
    | (p, .error f) => some s!"⚠️  Warning: Could not load {p}: {f.message}"
    | _ => none
  let done := loaded.map fun (p, text) => transformFile ts p text
  let lines := done.map fun
    | .ok f => s!"✅ Transformed {f.path}: {f.changes.length} changes"
    | .error f => s!"❌ {f.message}"
  let start := [s!"🌐 Applying {ts.length} global transformations...",
    s!"📂 Loading {paths.length} files..."]
  let files := done.filterMap Except.toOption
  let errors := done.filterMap fun
    | .error f => some f
    | .ok _ => none
  (⟨files, errors⟩, start ++ warnings ++ lines)

namespace TransformResult

def problems [Dialect] (r : TransformResult) : List String :=
  r.files.filterMap fun f =>
    if (Syntax.parse? f.text).isSome then none
    else some s!"Syntax error in transformed {f.path}: {Dialect.complaint f.text}"

/-- What a change is about, by the first of these words in its description. -/
def category? (change : String) : Option String :=
  let s := Text.lower change.toList
  [("class", "classes"), ("function", "functions"), ("variable", "variables"),
    ("usage", "usages")].findSome? fun (word, category) =>
      if Text.occursIn word.toList s then some category else none

def changes (r : TransformResult) : List String := r.files.flatMap (·.changes)

def counts (r : TransformResult) : Table String Nat :=
  (r.changes.filterMap category?).foldl (fun t c => t.modify c 0 (· + 1)) .empty

def importCount (r : TransformResult) : Nat := (r.files.flatMap (·.imports)).length

def success (r : TransformResult) : Bool := r.errors.isEmpty

end TransformResult

end Restyle.Project

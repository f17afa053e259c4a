import Restyle.Project.File

/-!
Processing of a project: every file with the plan for all of them, or every file for itself if
nothing is known about the names of the project.
-/

namespace Restyle.Project

open Disk (Path)
open Restyle.Symbol (SymbolMap Transformation)

structure Context where
  map : SymbolMap
  plan : List Transformation

structure Engine where
  settings : Settings
  context : Option Context

structure ProjectResult where
  files : List FileResult
  transformations : List Transformation
  changes : Table Path (List String)

namespace ProjectResult

def success (r : ProjectResult) : Bool := r.files.all (·.success)

end ProjectResult

namespace Engine

def start (s : Settings) (m : Option SymbolMap) : Engine := ⟨s, m.map fun m => ⟨m, []⟩⟩

def processFile [Dialect] (e : Engine) (d : Disk) (path : Path) : FileResult × List String :=
  match e.context with
  | none => processAlone e.settings d path
  | some c => processTogether e.settings d c.map (Symbol.renamesIn c.plan path) path

def changesOf (rs : List FileResult) : Table Path (List String) :=
  .ofList ((rs.filter fun r => r.success && !r.changes.isEmpty).map fun r => (r.path, r.changes))

def planned (e : Engine) : Engine :=
  { e with context := e.context.map fun c => { c with plan := c.map.plan e.settings } }

/-- Processes all files. The lines are those that are told on the way. -/
def processProject [Dialect] (e : Engine) (d : Disk) (paths : List Path) :
    Engine × ProjectResult × List String :=
  let e := e.planned
  match e.context with
  | none =>
    let done := paths.map (e.processFile d)
    (e, ⟨done.map (·.1), [], .empty⟩,
      "⚠️  No global symbol map provided, falling back to individual file processing" ::
        done.flatMap (·.2))
  | some c =>
    let done := paths.map fun path =>
      let (r, told) := e.processFile d path
      (r, s!"🔄 Processing {path} with combined local + cross-file context..." :: told)
    let results := done.map (·.1)
    (e, ⟨results, c.plan, changesOf results⟩,
      s!"🌐 Processing {paths.length} files with cross-file coordination..." ::
        SymbolMap.planReport c.plan ++ done.flatMap (·.2))

end Engine

end Restyle.Project

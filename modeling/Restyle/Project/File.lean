import Restyle.Docstring.Apply
import Restyle.Layout.BlankLines
import Restyle.Project.Result
import Restyle.Source.Session
import Restyle.Symbol.Plan

/-!
Processing of one file: new names, then docstrings, then blank lines.
-/

namespace Restyle.Project

open Disk (Path)
open Restyle.Symbol (SymbolMap)

inductive Fault where
  | load (fault : Session.Fault)
  | naming (fault : Session.Fault)
  | combined (fault : Session.Fault)
  | docstring (fault : Rename.TemplateFault)
  | blankLines (fault : Layout.NotACount)
deriving DecidableEq, Repr

def Fault.message : Fault → String
  | load f => f.message
  | naming f => s!"Error applying naming transformations: {f.message}"
  | combined f => s!"Error applying combined transformations: {f.message}"
  | docstring f => f.message
  | blankLines f => f.message

/-- The elements that have to have another name, each with that name. -/
def renamings (s : Settings) (es : List Element) : List (Element × String) :=
  es.filterMap fun e => do
    let new ← s.requiredName? e.kind e.name
    if new.isEmpty || new = e.name then none else some (e, new)

def renameMap (rs : List (Element × String)) : NameMap :=
  .ofList (rs.map fun (e, new) => (e.name, new))

def describe (r : Element × String) : String :=
  s!"Renamed {r.1.kind.label} '{r.1.name}' to '{r.2}'"

def namingNotice : String := "🎯 Using formatting-preserving transformation for naming changes"

/-- Gives the elements of the loaded source their names. There is no result if all of them have
theirs. -/
def namingStep (s : Settings) (session : Session) (es : List Element) :
    Option (Except Fault Renamed) :=
  match renamings s es with
  | [] => none
  | rs =>
    let renamed : Except Session.Fault Renamed := do
      let new ← session.renamedText (renameMap rs)
      let old ← session.text
      return ⟨String.ofList old, String.ofList new, rs.map describe, rs.map (·.1)⟩
    some (renamed.mapError .naming)

def formatDocstrings [Dialect] (s : Settings) (text : List Char) (changes : List String) :
    Except Fault (List Char × List String) :=
  if s.docstrings then do
    match ← (Docstring.apply text).mapError .docstring with
    | some (new, told) => return (new, changes ++ told)
    | none => return (text, changes)
  else .ok (text, changes)

def formatBlankLines (s : Settings) (text : List Char) (changes : List String) :
    Except Fault (List Char × List String) := do
  match ← (Layout.apply s text).mapError .blankLines with
  | some new => return (new, changes ++ ["Applied blank lines formatting"])
  | none => return (text, changes)

/-- Docstrings and blank lines of a text, with the changes made to it so far. -/
def format [Dialect] (s : Settings) (text : List Char) (changes : List String) :
    Except Fault (List Char × List String) := do
  let (text, changes) ← formatDocstrings s text changes
  formatBlankLines s text changes

def result (path : Path) (source : List Char) (r : Except Fault (List Char × List String)) :
    FileResult :=
  match r with
  | .ok (code, changes) => .processed path source code changes
  | .error f => .failed path f.message

def load [Dialect] (d : Disk) (path : Path) : Except Fault (Session × List Char × List Element) :=
  match Session.start.loadFile d path with
  | (_, some f) => .error (.load f)
  | (session, none) => do
    let text ← session.text.mapError .load
    let es ← session.elements.mapError .load
    return (session, text, es)

/-- Processes a file for itself. The lines are those that are told on the way. -/
def processAlone [Dialect] (s : Settings) (d : Disk) (path : Path) : FileResult × List String :=
  match load d path with
  | .error f => (.failed path f.message, [])
  | .ok (session, text, es) =>
    match namingStep s session es with
    | none => (result path text (format s text []), [])
    | some step =>
      (result path text do
        let r ← step
        format s r.text.toList r.changes, [namingNotice])

/-- The new names of a file: its own ones, overridden by those of the project. -/
def combinedNames (own : List (Element × String)) (cross : NameMap) : NameMap :=
  (renameMap own).override cross

def describeCross (m : SymbolMap) (path : Path) (r : String × String) : String :=
  s!"Renamed {m.kindIn r.1 path} '{r.1}' to '{r.2}' (cross-file)"

/-- Whether a change is about a name that the project does not decide about. -/
def isLeftAlone (cross : NameMap) (change : String) : Bool :=
  (changedName? change).any fun old => !cross.contains old

/-- The changes of a file: its own ones, unless the project decides about the name, and those of
the project. -/
def combinedChanges (m : SymbolMap) (cross : NameMap) (path : Path)
    (own : List (Element × String)) : List String :=
  (own.map describe).filter (isLeftAlone cross) ++ cross.entries.map (describeCross m path)

/-- The result of a file that the project has a say in. A file without any change keeps its
source. -/
def combinedResult (path : Path) (source : List Char)
    (r : Except Fault (List Char × List String)) : FileResult :=
  match r with
  | .ok (code, changes) =>
    if changes.isEmpty && code = source then .processed path source source []
    else .processed path source code changes
  | .error f => .failed path f.message

/-- Processes a file with its own new names and those that the project gives. The project
decides where the two differ. -/
def processTogether [Dialect] (s : Settings) (d : Disk) (m : SymbolMap) (cross : NameMap)
    (path : Path) : FileResult × List String :=
  match load d path with
  | .error f => (.failed path f.message, [])
  | .ok (session, text, es) =>
    let own := renamings s es
    let names := combinedNames own cross
    let changes := combinedChanges m cross path own
    if names.isEmpty then (combinedResult path text (format s text changes), [])
    else
      match session.renamedText names with
      | .error f => (.failed path (Fault.combined f).message, [])
      | .ok renamed =>
        (combinedResult path text (format s renamed changes),
          [s!"🎯 Applied {names.size} transformations to {path} (formatting preserved)"])

end Restyle.Project

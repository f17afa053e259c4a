import Restyle.CommandLine.Arguments
import Restyle.Config.Check
import Restyle.Project.Engine
import Restyle.Review.Process
import Restyle.Selection.Scan
import Restyle.Symbol.Analyze
import Restyle.Syntax.Dialect

/-!
One run of the tool: select the files, look at their names, process them, and review the results.
-/

namespace Restyle.CommandLine

open Disk (Path)
open Project (Engine)
open Review (Desk ReviewM say)
open Restyle.Symbol (SymbolMap)

variable [Dialect] [Config.Validator]

/-! ### A project -/

/-- How the processing of a project ended. The counts of failed and of all files are there if the
review came to its end. -/
structure Completion where
  success : Bool
  counts : Option (Nat × Nat)
deriving DecidableEq, Repr

def Completion.failed : Completion := ⟨false, none⟩

def Completion.unneeded : Completion := ⟨true, none⟩

def rootOf (d : Disk) (target : Path) : Except Disk.Refusal Path := do
  return if ← d.isDir? target then target else target.parent

def completion (os : List Review.Outcome) : Completion :=
  let failed := (os.filter (!·.success)).length
  ⟨failed = 0, some (failed, os.length)⟩

def breakOff (message : String) : ReviewM Completion := do
  say [s!"❌ Error in cross-file processing: {message}"]
  return .failed

def reviewResults (settings : Settings) (rs : List FileResult) : ReviewM Completion := do
  say ["💾 Step 3: Applying changes with smart GUI...",
    "   📋 GUI will show only definition files",
    "   🔄 Usage files will be updated automatically"]
  let os ← Review.review settings rs
  say (Review.summary os)
  if os.any (·.isQuit) then
    say ["⚠️  Processing stopped by user"]
    return .failed
  else return completion os

/-- Processes files whose names are known. Nothing is reviewed if one of them fails. -/
def processFiles (settings : Settings) (map : SymbolMap) (files : List Path) (verbose : Bool) :
    ReviewM Completion := do
  say ["🎯 Step 2: Processing files with cross-file transformations..."]
  let disk := (← get).desk.disk
  let (_, result, told) := (Engine.start settings (some map)).processProject disk files
  say told
  if !result.success then
    say ["❌ Error in transformation processing: None"]
    return .failed
  else if result.files.isEmpty then
    say ["ℹ️  No changes needed - all files already follow the configured conventions"]
    return .unneeded
  else
    let planned := result.transformations.length
    if verbose && planned > 0 then
      say [s!"   🎯 Generated {planned} global transformations"]
    reviewResults settings result.files

def processProject (settings : Settings) (files : List Path) (target : Path) (verbose : Bool) :
    ReviewM Completion := do
  say ["🔍 Step 1: Analyzing project for cross-file symbols..."]
  let disk := (← get).desk.disk
  match rootOf disk target with
  | .error r => breakOff r.message
  | .ok root =>
    let analysis := SymbolMap.empty.analyze disk root files
    say analysis.told
    match analysis.fault with
    | some e => breakOff e.message
    | none =>
      if verbose then
        say [s!"   📊 Analysis complete: found symbols across {files.length} files"]
      processFiles settings analysis.map files verbose

/-! ### The command -/

inductive Failure where
  | config (fault : Config.Fault)
  | patterns (problems : List String)
  | noTarget (target : Path)
  | selection (fault : Selection.Fault)
  | refused (refusal : Disk.Refusal)
  /-- The target is not even a text. -/
  | notText

def notFoundLine (message : String) : String := s!"❌ File not found: {message}"

def unexpectedLine (message : String) : String := s!"❌ Unexpected error: {message}"

def refusalLine (r : Disk.Refusal) : String :=
  if r.reason = .notFound then notFoundLine r.message else unexpectedLine r.message

def Failure.lines : Failure → List String
  | config (.refused r) => [refusalLine r]
  | config f => [s!"❌ Configuration error: {f.message}"]
  | patterns problems =>
    "❌ Configuration errors in file patterns:" :: problems.map fun p => s!"  - {p}"
  | noTarget target => [s!"❌ Error: Target path does not exist: {target}"]
  | selection (.refused r) => [refusalLine r]
  | selection (.missingDirectory p) =>
    [notFoundLine (Selection.Fault.message (.missingDirectory p))]
  | selection (.missingFile p) => [notFoundLine (Selection.Fault.message (.missingFile p))]
  | selection f => [unexpectedLine f.message]
  | refused r => [refusalLine r]
  | notText => [unexpectedLine "expected str, bytes or os.PathLike object, not list"]

def selectFiles (d : Disk) (s : Selection) (target : Path) : Except Failure (List Path) := do
  if ← (d.isFile? target).mapError .refused then (s.scanFile d target).mapError .selection
  else if ← (d.isDir? target).mapError .refused then
    (s.scanDirectory d target).mapError .selection
  else throw (.noTarget target)

def prepare (d : Disk) (config target : Option String) :
    Except Failure (Settings × Path × List Path) := do
  let some configText := config | throw .notText
  let c ← (Config.open? d .standard (Path.parse configText)).mapError .config
  let selection := Selection.ofSettings c.settings
  if !selection.problems.isEmpty then throw (.patterns selection.problems)
  let some targetText := target | throw .notText
  let path := Path.parse targetText
  return (c.settings, path, ← selectFiles d selection path)

def runCommand (config target : Option String) (verbose : Bool) : ReviewM Nat := do
  let shown := config.getD "[]"
  if verbose then say [s!"📋 Loading configuration from: {shown}"]
  match prepare (← get).desk.disk config target with
  | .error f =>
    say f.lines
    return 1
  | .ok (_, _, []) =>
    say ["ℹ️  No Python files found matching the configured patterns."]
    return 0
  | .ok (settings, path, files) =>
    if verbose then
      say (s!"📁 Found {files.length} files to process:" :: files.map (fun f => s!"  - {f}") ++ [""])
    let done ← processProject settings files path verbose
    if done.success then
      say ["✅ Processing completed successfully!"]
      return 0
    else
      say ["❌ Processing completed with errors."]
      return 1

/-- The same, where an interrupt by the user ends the run. -/
def runGuarded (config target : Option String) (verbose : Bool) : ReviewM Nat :=
  tryCatch (runCommand config target verbose) fun
    | .interrupt => do
      say ["", "⚠️  Operation cancelled by user."]
      return 1
    | .endOfInput => do
      say [unexpectedLine (Review.Stop.message .endOfInput)]
      return 1

structure Exit where
  code : Nat
  desk : Desk
  complaint : List String

def run (desk : Desk) (args : List String) : Exit :=
  match readArguments args with
  | .error c => ⟨2, desk, complaintLines c⟩
  | .ok .help => ⟨0, desk.say helpLines, []⟩
  | .ok (.process config target verbose) =>
    match Review.perform (runGuarded config target verbose) ⟨.start, desk⟩ with
    | (.ok code, s) => ⟨code, s.desk, []⟩
    | (.error _, s) => ⟨1, s.desk, []⟩

end Restyle.CommandLine

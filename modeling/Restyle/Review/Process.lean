import Restyle.Output.Write
import Restyle.Review.Desk
import Restyle.Review.Group

/-!
The review of a project. The user decides about every file with changes of its own; the files that
use its names follow the decision.
-/

namespace Restyle.Review

open Disk (Path)

structure Outcome where
  path : Path
  success : Bool
  output : Option Path
  error : Option String
  isDefinition : Bool
  skipped : Bool
  autoApplied : Bool
deriving DecidableEq, Repr

def quitError : String := "USER_QUIT"

namespace Outcome

def failed (r : FileResult) : Outcome :=
  let error := r.error.getD "None"
  ⟨r.path, false, none, some s!"Processing failed: {error}", false, false, false⟩

def leftOut (path : Path) : Outcome := ⟨path, true, some path, none, true, true, false⟩

def quit (path : Path) : Outcome := ⟨path, false, none, some quitError, true, true, false⟩

def stopped (path : Path) (s : Stop) : Outcome :=
  ⟨path, false, none, some s.message, true, false, false⟩

def written (path : Path) (w : Output.WriteResult) (isDefinition : Bool) : Outcome :=
  match w.outcome with
  | .ok target => ⟨path, true, some target, none, isDefinition, false, !isDefinition⟩
  | .error f => ⟨path, false, none, some f.message, isDefinition, false, !isDefinition⟩

def isQuit (o : Outcome) : Bool := o.error == some quitError

end Outcome

structure Standing where
  applyAll : Bool
  skipAll : Bool
  quit : Bool
deriving DecidableEq, Repr

def Standing.start : Standing := ⟨false, false, false⟩

structure State where
  standing : Standing
  desk : Desk

abbrev ReviewM := ExceptT Stop (StateM State)

def perform {α : Type} (x : ReviewM α) (s : State) : Except Stop α × State := x.run.run s

def say (lines : List String) : ReviewM Unit :=
  modify fun s => { s with desk := s.desk.say lines }

def stand (f : Standing → Standing) : ReviewM Unit :=
  modify fun s => { s with standing := f s.standing }

def askOnConsole (path : Path) (changes : List String) : ReviewM Verdict := do
  say (["", s!"📄 Apply changes to {path}?"] ++ changes.map fun c => s!"  {c}")
  let desk := (← get).desk
  let (answer, input, events) := readVerdict desk.input
  let events := events ++ [.ofAnswer path answer]
  modify fun s => { s with desk := { desk with input := input }.add events }
  match answer with
  | .ok v => return v
  | .error e => throw e

/-- Asks in the window. There is no answer if the display is lost. -/
def askInWindow (e : Exhibit) : ReviewM (Option Answer) := do
  let desk := (← get).desk
  let shown : Shown Unit := showChange desk.sizes desk.window desk.actions e
  let desk := { desk with window := shown.window, actions := shown.actions }
  let event := Event.ofChoice e.path shown.all shown.choice
  modify fun s => { s with desk := (desk.say shown.told).add [event] }
  match shown.answer with
  | .ok a => return some a
  | .error .interrupt => throw .interrupt
  | .error .displayLost => return none

/-- An answer for all files stands from then on. -/
def remember (a : Answer) : ReviewM Unit :=
  if a.all && a.apply then do
    stand fun s => { s with applyAll := true }
    say ["✅ Will apply to all remaining definition files"]
  else if a.all then do
    stand fun s => { s with skipAll := true }
    say ["⏩ Will skip all remaining definition files"]
  else pure ()

/-- Asks about a group, in the window if there is one, and else on the console. -/
def ask (settings : Settings) (g : Group) : ReviewM Verdict := do
  let r := g.definition
  say [s!"🎨 Showing GUI for definition file: {r.path.name}"]
  if settings.showDiffs && (← get).desk.hasWindows then
    match ← askInWindow ⟨r.path, r.source, r.code.getD "", g.announcement⟩ with
    | some a =>
      remember a
      return if a.apply then .yes else .no
    | none =>
      say [s!"❌ GUI error: {breakdownMessage .displayLost}"]
      askOnConsole r.path g.announcement
  else askOnConsole r.path g.announcement

def writeResult (write : Output.Writer) (r : FileResult) (isDefinition : Bool) :
    ReviewM Outcome := do
  let desk := (← get).desk
  let w := write desk.disk r.path r.code
  let event := Event.write r.path r.code w.outcome.isOk
  modify fun s => { s with desk := { desk with disk := w.disk }.add [event] }
  return .written r.path w isDefinition

def applyDefinition (write : Output.Writer) (r : FileResult) : ReviewM Outcome := do
  say [s!"✅ Applying definition changes to {r.path.name}"]
  writeResult write r true

def applyUsage (write : Output.Writer) (r : FileResult) : ReviewM Outcome := do
  say [s!"🔄 Auto-updating usage file: {r.path.name}"]
  writeResult write r false

def decideDefinition (settings : Settings) (write : Output.Writer) (g : Group) :
    ReviewM Outcome := do
  let r := g.definition
  let standing := (← get).standing
  if standing.applyAll then
    say [s!"✅ Auto-applying to {r.path.name} (apply to all definitions)"]
    applyDefinition write r
  else if standing.skipAll then
    say [s!"⏩ Auto-skipping {r.path.name} (skip all definitions)"]
    return .leftOut r.path
  else
    match ← ask settings g with
    | .quit =>
      stand fun s => { s with quit := true }
      return .quit r.path
    | .no =>
      say [s!"⏩ User skipped {r.path.name}"]
      return .leftOut r.path
    | .yes => applyDefinition write r

/-- The same, where the end of the input is a failure of this file. -/
def reviewDefinition (settings : Settings) (write : Output.Writer) (g : Group) :
    ReviewM Outcome :=
  tryCatch (decideDefinition settings write g) fun
    | .endOfInput => return .stopped g.definition.path .endOfInput
    | .interrupt => throw .interrupt

/-- The other files of a group follow its own file if that one was written. -/
def applyUsages (write : Output.Writer) (g : Group) (o : Outcome) : ReviewM (List Outcome) :=
  if o.success && !o.skipped then g.usages.mapM (applyUsage write) else pure []

/-- The groups one after the other, until the user quits. -/
def reviewGroups (settings : Settings) (write : Output.Writer) :
    List Group → ReviewM (List Outcome)
  | [] => return []
  | g :: rest => do
    if (← get).standing.quit then return []
    let o ← reviewDefinition settings write g
    if o.isQuit then return [o]
    let followers ← applyUsages write g o
    return o :: followers ++ (← reviewGroups settings write rest)

def failures (rs : List FileResult) : List Outcome :=
  (rs.filter (!·.success)).map Outcome.failed

def changed (rs : List FileResult) : List FileResult :=
  rs.filter fun r => r.success && r.hasChanges

/-- Reviews the results for all files with a way to write them. -/
def reviewWith (settings : Settings) (write : Output.Writer) (rs : List FileResult) :
    ReviewM (List Outcome) := do
  say ["🌐 Processing cross-file transformations..."]
  let changed := changed rs
  if changed.isEmpty then
    say ["ℹ️  No files need changes"]
    return failures rs
  let gs := groups changed
  say [categories changed, s!"📋 Found {gs.length} definition file groups"]
  say (gs.map fun g => s!"   📝 {g.definition.path.name} → {g.usages.length} usage files")
  return failures rs ++ (← reviewGroups settings write gs)

def review (settings : Settings) (rs : List FileResult) : ReviewM (List Outcome) :=
  reviewWith settings (Output.write settings.mode settings.newFilesSuffix) rs

/-! ### Summary -/

def rule : String := String.ofList (List.replicate 60 '=')

def isDone (o : Outcome) : Bool := o.success && !o.skipped

def summaryLine (o : Outcome) : String :=
  let mark := if o.isDefinition then "📝" else "🔗"
  let status := if o.autoApplied then " (auto-applied)" else ""
  s!"  {mark} {o.path}{status}"

def summary (os : List Outcome) : List String :=
  let count (p : Outcome → Bool) : Nat := (os.filter p).length
  let failed := count fun o => !o.success && !o.isQuit
  let skipped := count (·.skipped)
  let done := count isDone
  ["", rule, "CROSS-FILE TRANSFORMATION SUMMARY", rule,
   s!"Total files processed: {os.length}",
   s!"  • Definition files: {count (·.isDefinition)}",
   s!"  • Usage files: {count (!·.isDefinition)}",
   s!"Successfully transformed: {done}",
   s!"  • Auto-applied usage files: {count (·.autoApplied)}"] ++
  (if failed > 0 then [s!"Failed: {failed}"] else []) ++
  (if skipped > 0 then [s!"Skipped by user: {skipped}"] else []) ++
  (if done > 0 then
    "" :: "✅ Successfully transformed files:" :: (os.filter isDone).map summaryLine else []) ++
  [rule]

end Restyle.Review

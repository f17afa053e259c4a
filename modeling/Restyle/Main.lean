import Restyle.CommandLine.Run

/-!
The command. A run works on a picture of the disk; what it changed there is written to the disk at
the end. Lines are read from the console when a question has no answer yet: the run is then made
again with one line more.
-/

namespace Restyle.Main

open CommandLine Review
open Disk (Path Node)

def place (names : List String) : String := "/" ++ String.intercalate "/" names

/-- The names at a place, with empty files. -/
partial def outline (names : List String) : IO Node := do
  let here ← IO.FS.realPath (place names)
  if ← here.isDir then
    let entries ← here.readDir
    let nodes ← entries.toList.mapM fun e => return (e.fileName, ← outline (names ++ [e.fileName]))
    return .dir .directory nodes
  else return .file .file []

def addPath (d : Disk) (p : Path) : IO Disk := do
  match d.resolve p with
  | .error _ => return d
  | .ok q =>
    try
      let n ← outline q.names
      return { d with root := d.root.plant q.names n }
    catch _ => return d

def addContent (d : Disk) (p : Path) : IO Disk := do
  match d.resolve p with
  | .error _ => return d
  | .ok q =>
    try
      let bytes ← IO.FS.readBinFile (place q.names)
      return d.fill q bytes.toList
    catch _ => return d

def picture (args : List String) : IO Disk := do
  let here ← IO.currentDir
  let cwd := (Path.parse here.toString).names
  let empty : Disk := ⟨(Node.dir .directory []).plant cwd (.dir .directory []), false, some cwd⟩
  match readArguments args with
  | .ok (.process (some config) (some target) _) =>
    let d ← addPath (← addPath empty (Path.parse target)) (Path.parse config)
    let d ← addContent d (Path.parse config)
    match prepare d (some config) (some target) with
    | .ok (_, _, files) => files.foldlM addContent d
    | .error _ => return d
  | _ => return empty

/-- The events up to the first question that has no answer. -/
def beforeAnswer (answers : Nat) : List Event → Option (List Event)
  | [] => none
  | .question :: rest =>
    match answers with
    | 0 => some [.question]
    | n + 1 => (beforeAnswer n rest).map (.question :: ·)
  | e :: rest => (beforeAnswer answers rest).map (e :: ·)

def printFrom (shown : Nat) (es : List Event) : IO Unit := do
  IO.print (String.join ((es.drop shown).map Event.text))
  (← IO.getStdout).flush

/-- Runs with the lines read so far, until all questions have an answer or the input ends. -/
partial def converse (args : List String) (desk : Desk) (shown : Nat) : IO Exit := do
  let e := run desk args
  match beforeAnswer desk.input.length e.desk.log with
  | none =>
    printFrom shown e.desk.log
    return e
  | some es =>
    printFrom shown es
    let line ← (← IO.getStdin).getLine
    if line.isEmpty then
      printFrom es.length e.desk.log
      return e
    else
      let answer := String.ofList (line.toList.filter (· != '\n'))
      converse args { desk with input := desk.input ++ [some answer] } es.length

def store (before after : Disk) : IO Unit := do
  let old := before.root.files []
  let new := after.root.files []
  for (names, content) in new do
    if old.lookup names != some content then
      IO.FS.writeBinFile (place names) ⟨content.toArray⟩
  for (names, _) in old do
    if (new.lookup names).isNone then IO.FS.removeFile (place names)

end Restyle.Main

def main (args : List String) : IO UInt32 := do
  let disk ← Restyle.Main.picture args
  let e ← Restyle.Main.converse args ⟨disk, [], none, [], false, .standard, []⟩ 0
  for line in e.complaint do
    IO.eprintln line
  Restyle.Main.store disk e.desk.disk
  return e.code.toUInt32

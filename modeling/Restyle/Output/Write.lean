import Restyle.Config.Settings

/-!
Writing of processed files, over the old file with a backup that is taken away afterwards, or
under a new name.
-/

namespace Restyle.Output

open Disk (Path)

inductive WriteFault where
  | refused (refusal : Disk.Refusal)
  | noText
  | nullCharacter
  | noName (path : Path)
  | unknownMode (name : String)
deriving DecidableEq, Repr

def WriteFault.message : WriteFault → String
  | refused r => r.message
  | noText => "write() argument must be str, not None"
  | nullCharacter => "embedded null byte"
  | noName path =>
    let shown := Text.quoted path.text
    s!"PosixPath({shown}) has an empty name"
  | unknownMode name => s!"Unknown output mode: {name}"

/-- The disk after an attempt to write, and the file that was written or why there is none. -/
structure WriteResult where
  disk : Disk
  outcome : Except WriteFault Path

abbrev Writer := Disk → Path → Option String → WriteResult

/-- Opens a file and writes a text. Without a text the file is emptied all the same. -/
def writeText (d : Disk) (path : Path) (text : Option String) : WriteResult :=
  if path.hasNull then ⟨d, .error .nullCharacter⟩
  else match d.truncate path with
    | .error r => ⟨d, .error (.refused r)⟩
    | .ok opened =>
      match text with
      | some s => ⟨opened.fill path (Text.encode s.toList), .ok path⟩
      | none => ⟨opened, .error .noText⟩

/-! ### In place -/

def backupPath (path : Path) : Path := path.withName (path.name ++ ".backup")

/-- Takes the backup back after a failure, and takes it away. -/
def restore (d : Disk) (path : Path) (fault : WriteFault) : WriteResult :=
  let backup := backupPath path
  match d.exists? backup with
  | .error r => ⟨d, .error (.refused r)⟩
  | .ok false => ⟨d, .error fault⟩
  | .ok true =>
    match d.copy backup path with
    | .error r => ⟨d, .error (.refused r)⟩
    | .ok restored =>
      match restored.remove backup with
      | .error r => ⟨restored, .error (.refused r)⟩
      | .ok d => ⟨d, .error fault⟩

def writeInPlace (d : Disk) (path : Path) (text : Option String) : WriteResult :=
  if path.names.isEmpty then ⟨d, .error (.noName path)⟩
  else
    let backup := backupPath path
    match d.copy path backup with
    | .error r => ⟨d, .error (.refused r)⟩
    | .ok saved =>
      let written := writeText saved path text
      match written.outcome with
      | .error f => restore written.disk path f
      | .ok _ =>
        match written.disk.remove backup with
        | .error r => restore written.disk path (.refused r)
        | .ok d => ⟨d, .ok path⟩

/-! ### New files -/

/-- The name with the suffix and, from the second one on, a number before its ending. -/
def newPath (path : Path) (suffix : String) (number : Nat) : Path :=
  let mark := if number = 0 then "" else s!"_{number}"
  path.parent ++ Path.parse (path.stem ++ suffix ++ mark ++ path.suffix)

def freePath (d : Disk) (path : Path) (suffix : String) :
    Nat → Nat → Except Disk.Refusal Path
  | 0, number => .ok (newPath path suffix number)
  | tries + 1, number => do
    let candidate := newPath path suffix number
    if ← d.exists? candidate then freePath d path suffix tries (number + 1)
    else return candidate

/-- Writes under the first free name. No directory has more names in it than the disk has nodes. -/
def writeNew (d : Disk) (path : Path) (suffix : String) (text : Option String) :
    WriteResult :=
  match freePath d path suffix (d.root.size + 1) 0 with
  | .error r => ⟨d, .error (.refused r)⟩
  | .ok target => writeText d target text

def write (mode : OutputMode) (suffix : String) : Writer := fun d path text =>
  match mode with
  | .inPlace => writeInPlace d path text
  | .newFiles => writeNew d path suffix text
  | .unknown name => ⟨d, .error (.unknownMode name)⟩

end Restyle.Output

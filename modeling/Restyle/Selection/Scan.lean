import Restyle.Config.Settings
import Restyle.Selection.Glob
import Restyle.Text.Blank

/-!
The files that a configuration selects below a directory.
-/

namespace Restyle

open Disk (Path Node)
open Json (Value)

/-- Which files are selected. Patterns are kept as they are configured; they should be texts. -/
structure Selection where
  includes : List Value
  excludes : List Value
  recursive : Bool

namespace Selection

def ofSettings (s : Settings) : Selection :=
  ⟨s.includePatterns.map .str, s.excludePatterns.map .str, s.recursive⟩

structure NotText where
  pattern : Value

def typeWord : Value → String
  | .null => "NoneType"
  | .bool _ => "bool"
  | .int _ => "int"
  | .real _ => "float"
  | .str _ => "str"
  | .arr _ => "list"
  | .obj _ => "dict"

def NotText.message (e : NotText) : String :=
  s!"expected str, bytes or os.PathLike object, not {typeWord e.pattern}"

/-- The texts that a pattern can fit to select a path: the path, its name, and its last parts. -/
def spellings (p : Path) : List String :=
  let ends := (List.range p.parts.length).map fun i => String.intercalate "/" (p.parts.drop i)
  p.text :: p.name :: ends

def matchesAny (p : Path) : List Value → Except NotText Bool
  | [] => .ok false
  | .str s :: rest =>
    if (spellings p).any (globMatches s) then .ok true else matchesAny p rest
  | v :: _ => .error ⟨v⟩

def selects (s : Selection) (p : Path) : Except NotText Bool := do
  if ← matchesAny p s.excludes then return false
  else matchesAny p s.includes

def keep (s : Selection) (p : Path) : Except NotText (List Path) := do
  if ← s.selects p then return [p] else return []

/-- The directories that are not gone into, since nothing in them can be looked at. -/
def isClosed (d : Disk) (n : Node) : Bool := !d.mayRead n || !d.maySearch n

mutual

def below (s : Selection) (d : Disk) (p : Path) : Node → Except NotText (List Path)
  | .file .. => s.keep p
  | .dir mode entries =>
    if isClosed d (.dir mode entries) then .ok [] else s.belowEntries d p entries

def belowEntries (s : Selection) (d : Disk) (p : Path) :
    List (String × Node) → Except NotText (List Path)
  | [] => .ok []
  | (name, n) :: rest => do
    let q := p ++ ⟨"", [name]⟩
    let skipped ← if n.isDir then matchesAny q s.excludes else .ok false
    let here ← if skipped then .ok [] else s.below d q n
    return here ++ (← s.belowEntries d p rest)

end

inductive Fault where
  | missingDirectory (given : Path)
  | noDirectory (given : Path)
  | missingFile (given : Path)
  | noFile (given : Path)
  | refused (refusal : Disk.Refusal)
  | notText (fault : NotText)

def Fault.message : Fault → String
  | missingDirectory p => s!"Directory not found: {p}"
  | noDirectory p => s!"Path is not a directory: {p}"
  | missingFile p => s!"File not found: {p}"
  | noFile p => s!"Path is not a file: {p}"
  | refused r => r.message
  | notText e => e.message

def direct (s : Selection) (d : Disk) (p : Path) : Except Fault (List Path) := do
  let names ← (d.list p).mapError .refused
  let found ← names.mapM fun name => do
    let q := p ++ ⟨"", [name]⟩
    if ← (d.isFile? q).mapError .refused then (s.keep q).mapError .notText else return []
  return found.flatten

def scanDirectory (s : Selection) (d : Disk) (given : Path) : Except Fault (List Path) := do
  let p ← (d.resolve given).mapError .refused
  if !(← (d.exists? p).mapError .refused) then throw (.missingDirectory given)
  if !(← (d.isDir? p).mapError .refused) then throw (.noDirectory given)
  let found ← if !s.recursive then s.direct d p else
    match d.node p with
    | .ok n => (s.below d p n).mapError .notText
    | .error _ => .ok []
  return found.mergeSort Path.le

def scanFile (s : Selection) (d : Disk) (given : Path) : Except Fault (List Path) := do
  let p ← (d.resolve given).mapError .refused
  if !(← (d.exists? p).mapError .refused) then throw (.missingFile given)
  if !(← (d.isFile? p).mapError .refused) then throw (.noFile given)
  (s.keep p).mapError .notText

/-- How many files of a directory are selected, or nothing if they cannot be listed. -/
def count (s : Selection) (d : Disk) (given : Path) : Nat :=
  match s.scanDirectory d given with
  | .ok ps => ps.length
  | .error _ => 0

def patternProblem? : Value → Option String
  | .str s => if (Text.trim s.toList).isEmpty then some "Empty pattern found" else none
  | v => some s!"Pattern must be string: {v.literal}"

def problems (s : Selection) : List String := (s.includes ++ s.excludes).filterMap patternProblem?

end Selection

end Restyle

import Restyle.Disk.Basic
import Restyle.Element.Extract
import Restyle.Rename.Tree
import Restyle.Rename.Words
import Restyle.Syntax.Parse
import Restyle.Syntax.Query
import Restyle.Text.Search

/-!
Sources, and sessions that load one source after the other.
-/

namespace Restyle

open Syntax

structure Source where
  text : List Char
  lines : List (List Char)
  tree : Tree

namespace Source

def syntaxMessage (detail : String := "invalid syntax") : String :=
  "Syntax error in source code: " ++ detail

def ofText? [Dialect] (text : List Char) : Option Source :=
  (parse? text).map fun tree => ⟨text, Text.lines text, tree⟩

inductive FileFault where
  | missing (path : Disk.Path)
  | undecodable (path : Disk.Path)
  | malformed (detail : String)
  | refused (refusal : Disk.Refusal)
deriving DecidableEq, Repr

def FileFault.message : FileFault → String
  | missing path => s!"File not found: {path}"
  | undecodable path => s!"File encoding not supported: {path}"
  | malformed detail => syntaxMessage detail
  | refused r => r.message

def readText (d : Disk) (path : Disk.Path) : Except FileFault (List Char) :=
  match d.read path with
  | .error r => .error (if r.reason = .notFound then .missing path else .refused r)
  | .ok bytes =>
    match Text.decode bytes with
    | .ok s => .ok (Text.unifyNewlines s)
    | .error _ => .error (.undecodable path)

/-! ### Readers -/

/-- A reader answers about a text, and keeps it if it is a source. `kept` is what it read last. -/
def read [Dialect] (kept : Option Source) (text : List Char) :
    Option Source × Except FileFault Source :=
  match ofText? text with
  | some source => (some source, .ok source)
  | none => (kept, .error (.malformed (Dialect.complaint text)))

def readFile [Dialect] (kept : Option Source) (d : Disk) (path : Disk.Path) :
    Option Source × Except FileFault Source :=
  match readText d path with
  | .ok text => read kept text
  | .error f => (kept, .error f)

/-! ### Windows -/

def paddedNumber (n : Nat) : String :=
  let digits := toString n
  String.ofList (List.replicate (3 - digits.length) ' ') ++ digits

/-- The line with the number `k`, marked if it is the one asked for. -/
def windowLine (marked : Int) (k : Nat) (line : List Char) : String :=
  let marker := if (k : Int) = marked then ">>> " else "    "
  s!"{marker}{paddedNumber k}: {String.ofList line}"

/-- Reads `n` lines from the place `i` on. This fails at a place past the last line. -/
def readFrom? (lines : List (List Char)) (line : Int) (i : Nat) : Nat → Option (List String)
  | 0 => some []
  | n + 1 => lines[i]?.bind fun l =>
    (readFrom? lines line (i + 1) n).map (windowLine line (i + 1) l :: ·)

/-- The lines around a line, with both ends cut to the source. -/
def readWindow? (lines : List (List Char)) (line context : Int) : Option String :=
  let start := max 0 (line - context - 1)
  let stop := min (lines.length : Int) (line + context)
  (readFrom? lines line start.toNat (stop - start).toNat).map (String.intercalate "\n")

def window (lines : List (List Char)) (line context : Int) : String :=
  (readWindow? lines line context).getD ""

end Source

/-- A session keeps the source that was loaded last, and its reader the source that it read last. -/
structure Session where
  reader : Option Source
  loaded : Option Source

namespace Session

def start : Session := ⟨none, none⟩

/-- The kinds of complaints about a file. They are told apart by the words of the complaint. -/
inductive Complaint where
  | notFound
  | encoding
  | grammar
deriving DecidableEq, Repr

def complaint (message : String) : Complaint :=
  if Text.occursIn "not found".toList message.toList then .notFound
  else if Text.occursIn "encoding".toList message.toList then .encoding
  else .grammar

inductive Fault where
  | noSource
  | noTree
  | complaint (kind : Complaint) (message : String)
  | refused (refusal : Disk.Refusal)
  | template (fault : Rename.TemplateFault)
deriving DecidableEq, Repr

def Fault.message : Fault → String
  | noSource => "No source loaded. Call load_file() or load_source() first."
  | noTree => "No AST loaded. Call load_file() or load_source() first."
  | complaint _ message => message
  | refused r => r.message
  | template f => f.message

/-- The session takes over what its reader has read, if it has read a source. -/
def load [Dialect] (s : Session) (text : List Char) : Session × Option Fault :=
  match Source.read s.reader text with
  | (reader, .ok source) => (⟨reader, some source⟩, none)
  | (reader, .error f) => (⟨reader, s.loaded⟩, some (.complaint .grammar f.message))

def loadFile [Dialect] (s : Session) (d : Disk) (path : Disk.Path) : Session × Option Fault :=
  match Source.readFile s.reader d path with
  | (reader, .ok source) => (⟨reader, some source⟩, none)
  | (reader, .error (.refused r)) => (⟨reader, s.loaded⟩, some (.refused r))
  | (reader, .error f) =>
    (⟨reader, s.loaded⟩, some (.complaint (complaint f.message) f.message))

def text (s : Session) : Except Fault (List Char) :=
  match s.loaded with
  | some source => .ok source.text
  | none => .error .noSource

def tree (s : Session) : Except Fault Tree :=
  match s.loaded with
  | some source => .ok source.tree
  | none => .error .noTree

def elements (s : Session) : Except Fault (List Element) := (s.tree).map Restyle.elements

def imports (s : Session) : List (String × Option String) :=
  match s.loaded with
  | some source => source.tree.imports
  | none => []

def window (s : Session) (line context : Int) : String :=
  match s.reader with
  | some source => Source.window source.lines line context
  | none => ""

def isValid [Dialect] (text : List Char) : Bool := (parse? text).isSome

def renamedText (s : Session) (m : NameMap) : Except Fault (List Char) := do
  let text ← s.text
  match Rename.renameWords m text with
  | .ok r => return r
  | .error f => throw (.template f)

/-- Renames in the loaded tree. It is the tree of the reader as well, which sees the new names. -/
def renameTree (s : Session) (m : NameMap) : Session × Except Fault (Option Tree) :=
  match s.loaded with
  | none => (s, .error .noTree)
  | some source =>
    if m.isEmpty then (s, .ok none)
    else
      let renamed : Source := { source with tree := source.tree.rename m }
      let reader := s.reader.map fun r => { r with tree := r.tree.rename m }
      (⟨reader, some renamed⟩, .ok (some renamed.tree))

end Session

end Restyle

import Restyle.Config.Schema
import Restyle.Disk.Basic

/-!
Loading a configuration from its file. A document is kept once it could be read; whether it obeys
the schema is asked afterwards, so that a file that reads but does not obey replaces the document
and is reported as well.
-/

namespace Restyle.Config

open Json
open Disk (Path Refusal)

inductive Fault where
  | schemaMissing (path : String)
  | schemaMalformed (detail : String)
  | missing (path : Path)
  | malformed (detail : String)
  | unreadable (detail : String)
  | invalid (violation : Violation)
  /-- The system does not even tell whether the file exists. -/
  | refused (refusal : Refusal)
deriving Repr

def Fault.message : Fault → String
  | schemaMissing path => s!"Schema file not found: {path}"
  | schemaMalformed detail => s!"Invalid JSON in schema file: {detail}"
  | missing path => s!"Configuration file not found: {path}"
  | malformed detail => s!"Invalid JSON in config file: {detail}"
  | unreadable detail => s!"Error reading config file: {detail}"
  | invalid violation => s!"Configuration validation error: {violation.cause.message}"
  | refused refusal => refusal.message

def Schema.read (path : String) (content : Option (List Char)) : Except Fault Schema :=
  match content with
  | none => .error (.schemaMissing path)
  | some s =>
    let s := Text.unifyNewlines s
    match Json.parse s with
    | .ok v => .ok (Schema.ofDocument v)
    | .error f => .error (.schemaMalformed (f.message s))

def readDocument (bytes : List UInt8) : Except Fault Value :=
  match Text.decode bytes with
  | .error f => .error (.unreadable f.message)
  | .ok s =>
    let s := Text.unifyNewlines s
    match Json.parse s with
    | .ok v => .ok v
    | .error f =>
      .error (if f.isSyntactic then .malformed (f.message s) else .unreadable (f.message s))

def loadDocument (d : Disk) (path : Path) : Except Fault Value :=
  match d.exists? path with
  | .error r => .error (.refused r)
  | .ok false => .error (.missing path)
  | .ok true =>
    match d.read path with
    | .error r => .error (.unreadable r.message)
    | .ok bytes => readDocument bytes

end Restyle.Config

namespace Restyle

/-- A configuration file and the document that was last read from it. -/
structure Config where
  path : Disk.Path
  schema : Config.Schema
  document : Json.Value

namespace Config

open Json
open Disk (Path Refusal)

def open? [Validator] (d : Disk) (schema : Schema) (path : Path) : Except Fault Config :=
  match loadDocument d path with
  | .error f => .error f
  | .ok v =>
    match schema.violation? v with
    | some bad => .error (.invalid bad)
    | none => .ok ⟨path, schema, v⟩

/-- Reads the file again. The document changes as soon as the file could be read. -/
def reload [Validator] (c : Config) (d : Disk) : Config × Option Fault :=
  match loadDocument d c.path with
  | .error f => (c, some f)
  | .ok v => ({ c with document := v }, (c.schema.violation? v).map .invalid)

/-! ### Asking -/

def get? (c : Config) (key : String) : Option Value :=
  c.document.at? ((Text.splitOn '.' key.toList).map String.ofList)

def get (c : Config) (key : String) (default : Value) : Value := (c.get? key).getD default

def outputMode (c : Config) : Value := c.get "output.mode" .null

def confirmChanges (c : Config) : Value := c.get "output.confirm_changes" (.bool true)

def showDiffs (c : Config) : Value := c.get "output.show_diffs" (.bool true)

def newFilesSuffix (c : Config) : Value := c.get "output.new_files_suffix" (.str "_formatted")

def includePatterns (c : Config) : Value :=
  c.get "file_selection.include_patterns" (.arr [.str "*.py"])

def excludePatterns (c : Config) : Value := c.get "file_selection.exclude_patterns" (.arr [])

def recursive (c : Config) : Value := c.get "file_selection.recursive" (.bool true)

def blankLinesAfterClass (c : Config) : Value :=
  c.get "formatting_rules.blank_lines_after_class" (.int 2)

def blankLinesAfterFunction (c : Config) : Value :=
  c.get "formatting_rules.blank_lines_after_function" (.int 1)

def namingConvention (c : Config) (group : String) : Value :=
  c.get ("naming_conventions." ++ group) .null

def formattingRule (c : Config) (rule : String) : Value := c.get ("formatting_rules." ++ rule) .null

def ruleEnabled (c : Config) (rule : String) : Value :=
  c.get ("enabled_rules." ++ rule) (.bool false)

end Config

end Restyle

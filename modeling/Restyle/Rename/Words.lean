import Restyle.Pattern.Template
import Restyle.Rename.NameMap

/-!
Renaming in text: every old name that stands as a word is replaced, and the layout stays. New
names are templates for the replacement.
-/

namespace Restyle.Rename

def attributePattern (name : List Char) : Pattern :=
  Pattern.char (.exactly '.') + Pattern.literal name + Pattern.boundary

structure TemplateFault where
  template : List Char
  fault : Template.Fault
deriving DecidableEq, Repr

def TemplateFault.message (f : TemplateFault) : String := f.fault.message f.template

def replaceAll (p : Pattern) (template s : List Char) : Except TemplateFault (List Char) :=
  match p.replaceAll template s with
  | .ok r => .ok r
  | .error f => .error ⟨template, f⟩

/-- Replaces one name where it is a word, and after dots. -/
def renameWord (old new s : List Char) : Except TemplateFault (List Char) := do
  let s ← replaceAll (Pattern.word old) new s
  replaceAll (attributePattern old) ('.' :: new) s

def renameWords (m : NameMap) (s : List Char) : Except TemplateFault (List Char) :=
  m.longestFirst.foldlM (fun s (old, new) => renameWord old.toList new.toList s) s

end Restyle.Rename
